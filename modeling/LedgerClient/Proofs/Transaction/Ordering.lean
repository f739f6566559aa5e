import LedgerClient.Proofs.Transaction.Assembly
import LedgerClient.Proofs.Transaction.Preparing
/-!
# What reaches the ordering service

* `Submission.Cleared`: all peers that were asked have accepted the same result in time
  and, where commit is to be waited for, every deliver peer has accepted its seek
  request in time.  `Submission.cleared_of_ready`, `Submission.ready_of_cleared`: this
  is what it takes to broadcast.
* `Submission.run_asked_of_ready`, `Submission.run_asked_of_not_ready`: a run asks for
  proposals and seeks first, and broadcasts only what is ready.
* `Submission.ordering_safety`: a submission sends one envelope at most.  It sends it
  only when cleared; and a cleared submission sends it if it can be signed and the
  stream opens.
-/

namespace LedgerClient

def Call.isSend : Call → Bool
  | .send _ => true
  | _ => false

/-- What is sent once a broadcast stream has been opened. -/
def submissions (asked : List Asked) : List Asked :=
  (asked.dropWhile fun a => a.call ≠ .openBroadcast).filter fun a => a.call.isSend

theorem submissions_append {before : List Asked} (h : ∀ a ∈ before, a.call ≠ .openBroadcast)
    (rest : List Asked) : submissions (before ++ rest) = submissions rest := by
  rw [submissions, submissions, List.dropWhile_append_of_pos fun a ha => decide_eq_true (h a ha)]

theorem submissions_eq_nil {before : List Asked} (h : ∀ a ∈ before, a.call ≠ .openBroadcast) :
    submissions before = [] := by
  have happend := submissions_append h []
  rw [List.append_nil] at happend
  exact happend

theorem submissions_cons {a : Asked} (h : a.call = .openBroadcast) (rest : List Asked) :
    submissions (a :: rest) = rest.filter fun a => a.call.isSend := by
  have hsend : ¬a.call.isSend = true := by
    rw [h]
    exact Bool.false_ne_true
  rw [submissions, List.dropWhile_cons_of_neg (by simp [h])]
  exact List.filter_cons_of_neg hsend

namespace Submission

/-- All peers that were asked have accepted the same result in time, the last one at an instant. -/
structure Endorsed (s : Submission) (signer : Signer) (endpoints : Endpoints) (channelId : String)
    (p : Progress) (built : BuiltProposal) (headers : HeaderSource) (signed : SignedProposal)
    (instant : Nat) : Prop where
  build : buildProposal signer channelId s.request p.headers = .ok built headers
  sign : signProposal built.proposal signer = .ok signed
  asked : s.peers endpoints ≠ []
  answered : Task.AllBy p.clock (nextReplies (s.peers endpoints) p)
    (fun r t => s.InTime p endpoints.endorseMs t ∧ r.AnsweredAt p.clock t) instant
  accepted : ∀ r ∈ nextReplies (s.peers endpoints) p, ∀ a, r.outcome = .answered a →
    s.Accepts a.response.status
  agreed : ∀ r ∈ nextReplies (s.peers endpoints) p, ∀ r' ∈ nextReplies (s.peers endpoints) p,
    ∀ a a', r.outcome = .answered a → r'.outcome = .answered a' → a.payload = a'.payload

/-- The submission is endorsed, and the deliver peers are ready at an instant. -/
structure Cleared (s : Submission) (signer : Signer) (endpoints : Endpoints) (channelId : String)
    (wait : Option Nat) (p : Progress) (built : BuiltProposal) (signed : SignedProposal)
    (instant : Nat) : Prop where
  exists_endorsed : ∃ headers endorsedAt,
    s.Endorsed signer endpoints channelId p built headers signed endorsedAt ∧
    DeliversReady signer endpoints channelId built.txId wait
      { p with headers := headers, clock := endorsedAt } instant

theorem accepts_iff {s : Submission} {status : Int32} :
    s.Accepts status ↔ s.Passes status ∧ isSuccess status = true := by
  cases s with
  | invoke request =>
    refine ⟨fun h => ⟨?_, h⟩, fun h => h.2⟩
    have hlt : status < 400 := (by simpa [Accepts, isSuccess] using h : _ ∧ _).2
    exact Int32.not_le.2 hlt
  | commit definition => exact ⟨fun h => ⟨h, by rw [show status = 200 from h]; rfl⟩, fun h => h.1⟩
  | approve definition packageId =>
    exact ⟨fun h => ⟨h, by rw [show status = 200 from h]; rfl⟩, fun h => h.1⟩

variable {s : Submission} {signer : Signer} {endpoints : Endpoints} {channelId : String}
  {wait : Option Nat} {p q q' : Progress} {endorsed : EndorsedProposal} {envelope : Envelope}
  {group? : Option (DeliverGroup × Nat)}

/-! ## What a run asks -/

theorem run_asked_of_prepared
    (h : s.prepare signer endpoints channelId p = .done (.ok (.inr endorsed)) q) :
    (s.run signer endpoints channelId wait p).progress.asked =
      (submitEndorsed signer endpoints channelId endorsed wait q).progress.asked := by
  rw [run_eq, Client.bind_of_ok h]
  refine Client.bind_asked_eq _ (fun _ q' => ?_) q
  cases firstResponse endorsed.responses <;> rfl

theorem run_asked_of_not_prepared
    (h : ∀ endorsed q, s.prepare signer endpoints channelId p ≠ .done (.ok (.inr endorsed)) q) :
    (s.run signer endpoints channelId wait p).progress.asked =
      (s.prepare signer endpoints channelId p).progress.asked := by
  rw [run_eq]
  cases hrun : s.prepare signer endpoints channelId p with
  | done result q =>
    cases result with
    | ok prepared =>
      rw [Client.bind_of_ok hrun]
      cases prepared with
      | inl tx => rfl
      | inr endorsed => exact absurd hrun (h endorsed q)
    | error e =>
      rw [Client.bind_of_error hrun]
      rfl
  | stopped q =>
    rw [Client.bind_of_stopped hrun]
    rfl

/-- What may be asked before a broadcast: proposals, streams to deliver peers and seek requests
on them. -/
def AskedFirst (endpoints : Endpoints) (a : Asked) : Prop :=
  (∃ proposal, a.call = .proposal proposal) ∨ SeeksOnly endpoints a.node a.call

theorem AskedFirst.ne_openBroadcast {a : Asked} (h : AskedFirst endpoints a) :
    a.call ≠ .openBroadcast := by
  rcases h with ⟨proposal, h⟩ | ⟨-, h | ⟨envelope, h⟩⟩
  · rw [h]
    exact Call.noConfusion
  · rw [h]
    exact Call.noConfusion
  · rw [h]
    exact Call.noConfusion

theorem prepared_asked
    (h : s.prepare signer endpoints channelId p = .done (.ok (.inr endorsed)) q) :
    ∃ proposals, q.asked = p.asked ++ proposals ∧ ∀ a ∈ proposals, AskedFirst endpoints a := by
  obtain ⟨proposals, hasked, hall⟩ := s.prepare_asksOnly signer endpoints channelId p
  rw [h] at hasked
  exact ⟨proposals, hasked, fun a ha => .inl (hall a ha)⟩

/-- A run that is ready broadcasts the envelope after what it asks first. -/
theorem run_asked_of_ready
    (hprepared : s.prepare signer endpoints channelId p = .done (.ok (.inr endorsed)) q)
    (hready : Ready signer endpoints channelId endorsed wait q envelope group? q') :
    ∃ before rest, (s.run signer endpoints channelId wait p).progress.asked =
        p.asked ++ (before ++ ⟨q'.clock, endpoints.orderer.id, .openBroadcast⟩ :: rest) ∧
      (∀ a ∈ before, AskedFirst endpoints a) ∧ q'.asked = p.asked ++ before ∧
      ((¬endpoints.orderer.Opens q' ∧ rest = []) ∨
        (endpoints.orderer.Opens q' ∧ ∃ t more, q'.clock ≤ t ∧
          rest = ⟨t, endpoints.orderer.id, .send envelope⟩ :: more ∧
          ∀ a ∈ more, a.call = .receive ∨ a.call = .close)) := by
  obtain ⟨proposals, hproposals, hfirst⟩ := prepared_asked hprepared
  obtain ⟨seeks, hseeks, hsecond⟩ := hready.asked
  obtain ⟨rest, hrest, hcases⟩ := submitEndorsed_asked_of_ready hready
  refine ⟨proposals ++ seeks, rest, ?_, fun a ha => ?_, ?_, hcases⟩
  · rw [run_asked_of_prepared hprepared, hrest, hseeks, hproposals, List.append_assoc,
      List.append_assoc, List.append_assoc]
  · rcases List.mem_append.1 ha with ha | ha
    · exact hfirst a ha
    · exact .inr (hsecond a ha)
  · rw [hseeks, hproposals, List.append_assoc]

/-- A run that never gets ready asks nothing else. -/
theorem run_asked_of_not_ready
    (h : ∀ endorsed q envelope group? q',
      s.prepare signer endpoints channelId p = .done (.ok (.inr endorsed)) q →
      ¬Ready signer endpoints channelId endorsed wait q envelope group? q') :
    ∃ before, (s.run signer endpoints channelId wait p).progress.asked = p.asked ++ before ∧
      ∀ a ∈ before, AskedFirst endpoints a := by
  by_cases hprepared : ∃ endorsed q,
      s.prepare signer endpoints channelId p = .done (.ok (.inr endorsed)) q
  · obtain ⟨endorsed, q, hprepared⟩ := hprepared
    obtain ⟨proposals, hproposals, hfirst⟩ := prepared_asked hprepared
    obtain ⟨seeks, hseeks, hsecond⟩ := submitEndorsed_asked_of_not_ready
      fun envelope group? q' => h endorsed q envelope group? q' hprepared
    refine ⟨proposals ++ seeks, ?_, fun a ha => ?_⟩
    · rw [run_asked_of_prepared hprepared, hseeks, hproposals, List.append_assoc]
    · rcases List.mem_append.1 ha with ha | ha
      · exact hfirst a ha
      · exact .inr (hsecond a ha)
  · obtain ⟨proposals, hasked, hall⟩ := s.prepare_asksOnly signer endpoints channelId p
    refine ⟨proposals, ?_, fun a ha => .inl (hall a ha)⟩
    rw [run_asked_of_not_prepared fun endorsed q hrun => hprepared ⟨endorsed, q, hrun⟩, hasked]

/-! ## Cleared submissions -/

/-- Collecting endorsements takes its time, and changes nothing else for the deliver peers. -/
theorem deliversReady_of_collected {proposal : SignedProposal} {peers : List Endorser}
    {inTime : Nat → Prop} {responses : List ProposalResponse} {txId : String} {instant : Nat}
    (h : Collected proposal peers inTime p responses q) :
    DeliversReady signer endpoints channelId txId wait q instant ↔
      DeliversReady signer endpoints channelId txId wait { p with clock := q.clock } instant :=
  deliversReady_congr (p := { p with clock := q.clock }) (q := q) rfl h.headers
    ⟨h.keeps.limit, h.keeps.calls⟩

/-- The envelope of what is ready names the transaction and the channel. -/
theorem names_of_ready
    (hprepared : s.prepare signer endpoints channelId p = .done (.ok (.inr endorsed)) q)
    (hready : Ready signer endpoints channelId endorsed wait q envelope group? q')
    (hwritable : endorsed.proposal.Writable) :
    ∃ channel, channelFor s.request channelId = .ok channel ∧
      envelope.Names endorsed.txId channel := by
  obtain ⟨built, headers, signed, h⟩ := prepare_prepared hprepared
  have hassembled := hready.assembled
  rw [h.proposal] at hwritable hassembled
  rw [h.txId]
  exact names_of_built h.build hwritable hassembled

/-- What is prepared and assembled has been endorsed. -/
theorem Prepared.endorses {built : BuiltProposal} {headers : HeaderSource} {signed : SignedProposal}
    (h : s.Prepared signer endpoints channelId p built headers signed endorsed q)
    (hassembled : assembleTransaction endorsed.proposal signer endorsed.responses = .ok envelope) :
    s.Endorsed signer endpoints channelId p built headers signed q.clock := by
  obtain ⟨first, rest, header, signatureHeader, payload, -, -, -, -, hsuccess, hagree, -⟩ :=
    assembleTransaction_ok_iff.1 hassembled
  have hpeers : s.peers endpoints ≠ [] := by
    rw [← List.length_pos_iff, ← h.collected.length_eq, List.length_pos_iff]
    exact h.answered
  refine ⟨h.build, h.sign, hpeers, h.collected.answered, fun r hr a ha => ?_,
    fun r hr r' hr' a a' ha ha' => ?_⟩
  · have hmem := h.collected.mem_iff.2 ⟨r, hr, ha⟩
    exact accepts_iff.2 ⟨h.passes a hmem, hsuccess a hmem⟩
  · have hmem := h.collected.mem_iff.2 ⟨r, hr, ha⟩
    have hmem' := h.collected.mem_iff.2 ⟨r', hr', ha'⟩
    exact (hagree a hmem).trans (hagree a' hmem').symm

/-- What is endorsed and prepared can be assembled, if it can be written and signed. -/
theorem Prepared.exists_envelope {built : BuiltProposal} {headers : HeaderSource}
    {signed : SignedProposal} {instant : Nat}
    (h : s.Prepared signer endpoints channelId p built headers signed endorsed q)
    (hendorsed : s.Endorsed signer endpoints channelId p built headers signed instant)
    (hwritable : built.proposal.Writable)
    (hsign : ∀ message, ∃ signature, signer.sign message = .ok signature) :
    ∃ envelope, assembleTransaction endorsed.proposal signer endorsed.responses = .ok envelope := by
  rw [h.proposal]
  refine exists_envelope_of_built h.build hwritable h.answered (fun a ha => ?_)
    (fun a ha a' ha' => ?_) hsign
  · obtain ⟨r, hr, hout⟩ := h.collected.mem_iff.1 ha
    exact (accepts_iff.1 (hendorsed.accepted r hr a hout)).2
  · obtain ⟨r, hr, hout⟩ := h.collected.mem_iff.1 ha
    obtain ⟨r', hr', hout'⟩ := h.collected.mem_iff.1 ha'
    exact hendorsed.agreed r hr r' hr' a a' hout hout'

/-- What is ready has been cleared. -/
theorem cleared_of_ready
    (hprepared : s.prepare signer endpoints channelId p = .done (.ok (.inr endorsed)) q)
    (hready : Ready signer endpoints channelId endorsed wait q envelope group? q') :
    ∃ built signed, s.Cleared signer endpoints channelId wait p built signed q'.clock ∧
      ∃ proposals, q.asked = p.asked ++ proposals ∧
        ∀ e ∈ s.peers endpoints, ⟨p.clock, e.id, .proposal signed⟩ ∈ proposals := by
  obtain ⟨built, headers, signed, h⟩ := prepare_prepared hprepared
  have hdelivers := deliversReady_of_confirmation hready.confirmed
  rw [h.txId] at hdelivers
  refine ⟨built, signed, ⟨headers, q.clock, h.endorses hready.assembled,
    (deliversReady_of_collected h.collected).1 hdelivers⟩, ?_⟩
  obtain ⟨proposals, hasked, hmem⟩ := h.collected.asked
  exact ⟨proposals, hasked, fun e he => (hmem _).2 ⟨e, he, rfl⟩⟩

/-- A cleared submission gets ready if its envelope can be written and signed. -/
theorem ready_of_cleared {built : BuiltProposal} {signed : SignedProposal} {instant : Nat}
    (h : s.Cleared signer endpoints channelId wait p built signed instant)
    (hwritable : built.proposal.Writable)
    (hsign : ∀ message, ∃ signature, signer.sign message = .ok signature) :
    ∃ endorsed q envelope group? q',
      s.prepare signer endpoints channelId p = .done (.ok (.inr endorsed)) q ∧
      Ready signer endpoints channelId endorsed wait q envelope group? q' ∧
      q'.clock = instant ∧ q'.limit = p.limit ∧
      (∀ node, q'.calls node .broadcast = p.calls node .broadcast) ∧
      ∃ channel, channelFor s.request channelId = .ok channel ∧
        envelope.Names built.txId channel := by
  obtain ⟨headers, endorsedAt, hendorsed, hdelivers⟩ := h
  obtain ⟨endorsed, q, hprepared, hclock⟩ := exists_prepare hendorsed.build hendorsed.sign
    hendorsed.asked hendorsed.answered
    fun r hr a ha => (accepts_iff.1 (hendorsed.accepted r hr a ha)).1
  obtain ⟨built', headers', signed', h⟩ := prepare_prepared hprepared
  have hbuilt := h.build
  rw [hendorsed.build] at hbuilt
  obtain ⟨rfl, rfl⟩ := EStateM.Result.ok.inj hbuilt
  have hsigned := h.sign
  rw [hendorsed.sign] at hsigned
  cases hsigned
  obtain ⟨envelope, hassembled⟩ := h.exists_envelope hendorsed hwritable hsign
  have hdelivers' : DeliversReady signer endpoints channelId endorsed.txId wait q instant := by
    rw [h.txId]
    subst hclock
    exact (deliversReady_of_collected h.collected).2 hdelivers
  obtain ⟨group?, q', hconfirmed, hinstant⟩ := exists_confirmation hdelivers'
  have hready : Ready signer endpoints channelId endorsed wait q envelope group? q' :=
    ⟨hassembled, hconfirmed⟩
  have hkeeps := confirmation_keeps hconfirmed
  refine ⟨endorsed, q, envelope, group?, q', hprepared, hready, hinstant,
    hkeeps.limit.trans h.collected.keeps.limit, fun node => ?_, ?_⟩
  · rw [hkeeps.calls node _ (by decide)]
    exact h.collected.keeps.calls node _ (by decide)
  · rw [← h.txId]
    exact names_of_ready hprepared hready (h.proposal ▸ hwritable)

/-! ## The envelopes of a run -/

theorem submissions_of_ready {before rest : List Asked} {instant : Nat} {node : NodeId}
    (hfirst : ∀ a ∈ before, AskedFirst endpoints a) :
    submissions (before ++ ⟨instant, node, .openBroadcast⟩ :: rest) =
      rest.filter fun a => a.call.isSend := by
  rw [submissions_append fun a ha => (hfirst a ha).ne_openBroadcast]
  exact submissions_cons rfl rest

theorem filter_isSend_eq_nil {more : List Asked}
    (h : ∀ a ∈ more, a.call = .receive ∨ a.call = .close) :
    (more.filter fun a => a.call.isSend) = [] := by
  refine List.filter_eq_nil_iff.2 fun a ha => ?_
  rcases h a ha with h | h
  · rw [h]
    exact Bool.false_ne_true
  · rw [h]
    exact Bool.false_ne_true

theorem AskedFirst.delivers_of_isSend {a : Asked} (h : AskedFirst endpoints a)
    (hsend : a.call.isSend = true) : ∃ d ∈ endpoints.delivers, a.node = d.id := by
  rcases h with ⟨proposal, h⟩ | ⟨hnode, -⟩
  · rw [h] at hsend
    cases hsend
  · exact hnode

/-- What a ready run asks of the ordering service. -/
theorem run_submissions_of_ready
    (hprepared : s.prepare signer endpoints channelId p = .done (.ok (.inr endorsed)) q)
    (hready : Ready signer endpoints channelId endorsed wait q envelope group? q') :
    ∃ asked, (s.run signer endpoints channelId wait p).progress.asked = p.asked ++ asked ∧
      (∀ a ∈ asked, a.call.isSend = true →
        a ∈ submissions asked ∨ ∃ d ∈ endpoints.delivers, a.node = d.id) ∧
      (∃ later, p.asked ++ asked = q.asked ++ later) ∧
      ((¬endpoints.orderer.Opens q' ∧ submissions asked = []) ∨
        (endpoints.orderer.Opens q' ∧ ∃ t, q'.clock ≤ t ∧
          submissions asked = [⟨t, endpoints.orderer.id, .send envelope⟩])) := by
  obtain ⟨before, rest, hasked, hfirst, hbefore, hcases⟩ := run_asked_of_ready hprepared hready
  obtain ⟨seeks, hseeks, -⟩ := hready.asked
  have hsubmissions : submissions
      (before ++ ⟨q'.clock, endpoints.orderer.id, .openBroadcast⟩ :: rest) =
        rest.filter fun a => a.call.isSend := submissions_of_ready hfirst
  refine ⟨_, hasked, fun a ha hsend => ?_,
    ⟨seeks ++ ⟨q'.clock, endpoints.orderer.id, .openBroadcast⟩ :: rest, ?_⟩, ?_⟩
  · rw [hsubmissions]
    rcases List.mem_append.1 ha with ha | ha
    · exact .inr ((hfirst a ha).delivers_of_isSend hsend)
    · rcases List.mem_cons.1 ha with rfl | ha
      · cases hsend
      · exact .inl (List.mem_filter.2 ⟨ha, hsend⟩)
  · rw [← List.append_assoc, ← List.append_assoc, ← hbefore, hseeks]
  · rw [hsubmissions]
    rcases hcases with ⟨hnot, rfl⟩ | ⟨hopens, t, more, ht, rfl, hmore⟩
    · exact .inl ⟨hnot, rfl⟩
    · refine .inr ⟨hopens, t, ht, ?_⟩
      rw [List.filter_cons_of_pos rfl, filter_isSend_eq_nil hmore]

/-- A cleared submission sends one envelope, which names the transaction and the channel. -/
theorem submissions_of_cleared {asked : List Asked} {built : BuiltProposal}
    {signed : SignedProposal} {instant : Nat}
    (hasked : (s.run signer endpoints channelId wait p).progress.asked = p.asked ++ asked)
    (hcleared : s.Cleared signer endpoints channelId wait p built signed instant)
    (hwritable : built.proposal.Writable)
    (hsign : ∀ message, ∃ signature, signer.sign message = .ok signature)
    (hopens : endpoints.orderer.Opens { p with clock := instant }) :
    ∃ t envelope channel, submissions asked = [⟨t, endpoints.orderer.id, .send envelope⟩] ∧
      channelFor s.request channelId = .ok channel ∧ envelope.Names built.txId channel ∧
      ∀ tx q, s.run signer endpoints channelId wait p = .done (.ok tx) q →
        tx.txId = built.txId := by
  obtain ⟨endorsed, q, envelope, group?, q', hprepared, hready, hclock, hlimit, hcalls, channel,
    hchannel, hnames⟩ := ready_of_cleared hcleared hwritable hsign
  have hopens' : endpoints.orderer.Opens q' :=
    (Orderer.opens_congr (p := { p with clock := instant }) hclock hlimit (hcalls _)).2 hopens
  obtain ⟨asked', hasked', -, -, hcases⟩ := run_submissions_of_ready hprepared hready
  obtain rfl : asked = asked' := List.append_cancel_left (hasked.symm.trans hasked')
  rcases hcases with ⟨hnot, -⟩ | ⟨-, t, -, h⟩
  · exact absurd hopens' hnot
  · obtain ⟨headers, endorsedAt, hendorsed, -⟩ := hcleared.exists_endorsed
    exact ⟨t, envelope, channel, h, hchannel, hnames,
      fun tx q hrun => txId_of_built hendorsed.build hrun⟩

/-- A submission sends one envelope at most; what it sends besides are seek requests to deliver
peers.  It sends the envelope only when it has been cleared: at least one peer was asked, all of
them accepted the same result in time, and the deliver peers, if there is one to wait for, had
accepted their seek requests by then.  A submission that is cleared, that can be written and
signed and for which the broadcast stream opens sends exactly one envelope, which names the
channel and the transaction that the submission returns. -/
theorem ordering_safety (s : Submission) (signer : Signer) (endpoints : Endpoints)
    (channelId : String) (wait : Option Nat) (p : Progress) :
    ∃ asked, (s.run signer endpoints channelId wait p).progress.asked = p.asked ++ asked ∧
      (∀ a ∈ asked, a.call.isSend = true →
        a ∈ submissions asked ∨ ∃ d ∈ endpoints.delivers, a.node = d.id) ∧
      (submissions asked).length ≤ 1 ∧
      (∀ a ∈ submissions asked, a.node = endpoints.orderer.id ∧
        ∃ built signed instant, s.Cleared signer endpoints channelId wait p built signed instant ∧
          instant ≤ a.instant ∧
          ∀ e ∈ s.peers endpoints, ⟨p.clock, e.id, .proposal signed⟩ ∈ asked) ∧
      ∀ built signed instant, s.Cleared signer endpoints channelId wait p built signed instant →
        built.proposal.Writable → (∀ message, ∃ signature, signer.sign message = .ok signature) →
        endpoints.orderer.Opens { p with clock := instant } →
        ∃ t envelope channel,
          submissions asked = [⟨t, endpoints.orderer.id, .send envelope⟩] ∧
          channelFor s.request channelId = .ok channel ∧ envelope.Names built.txId channel ∧
          ∀ tx q, s.run signer endpoints channelId wait p = .done (.ok tx) q →
            tx.txId = built.txId := by
  -- Only what gets ready opens a broadcast stream, so the two cases are two lists of calls.
  by_cases hrun : ∃ endorsed q envelope group? q',
      s.prepare signer endpoints channelId p = .done (.ok (.inr endorsed)) q ∧
      Ready signer endpoints channelId endorsed wait q envelope group? q'
  · obtain ⟨endorsed, q, envelope, group?, q', hprepared, hready⟩ := hrun
    obtain ⟨asked, hasked, hsends, ⟨later, hlater⟩, hcases⟩ :=
      run_submissions_of_ready hprepared hready
    refine ⟨asked, hasked, hsends, ?_, fun a ha => ?_, fun _ _ _ => submissions_of_cleared hasked⟩
    · rcases hcases with ⟨-, h⟩ | ⟨-, t, -, h⟩
      · rw [h]
        exact Nat.zero_le _
      · rw [h]
        exact le_rfl
    · rcases hcases with ⟨-, h⟩ | ⟨-, t, ht, h⟩
      · rw [h] at ha
        cases ha
      · rw [h] at ha
        obtain rfl := List.mem_singleton.1 ha
        obtain ⟨built, signed, hcleared, proposals, hproposals, hmem⟩ :=
          cleared_of_ready hprepared hready
        refine ⟨rfl, built, signed, q'.clock, hcleared, ht, fun e he => ?_⟩
        rw [hproposals, List.append_assoc] at hlater
        rw [List.append_cancel_left hlater]
        exact List.mem_append_left _ (hmem e he)
  · obtain ⟨asked, hasked, hfirst⟩ := run_asked_of_not_ready
      fun endorsed q envelope group? q' hprepared hready =>
        hrun ⟨endorsed, q, envelope, group?, q', hprepared, hready⟩
    have hnil := submissions_eq_nil fun a ha => (hfirst a ha).ne_openBroadcast
    refine ⟨asked, hasked, fun a ha hsend => .inr ((hfirst a ha).delivers_of_isSend hsend), ?_,
      fun a ha => ?_, fun _ _ _ => submissions_of_cleared hasked⟩
    · rw [hnil]
      exact Nat.zero_le _
    · rw [hnil] at ha
      cases ha

end Submission

/-! ### Steady nodes -/

def steadyEndorser : Endorser where
  id := ⟨.endorser, 0, "peer0:7051"⟩
  reply := fun _ => { delay := 1, outcome := .answered ⟨1, ⟨200, "done", []⟩, [7], none⟩ }

def steadyOrderer : Orderer where
  id := ⟨.orderer, 0, "orderer:7050"⟩
  broadcast := fun _ => {
    receiving := [{ delay := 1, outcome := .answered fun _ => ⟨.success, ""⟩ }] }
  deliver := fun _ => {}

def steadyEndpoints : Endpoints where
  orderer := steadyOrderer
  endorsers := [steadyEndorser]
  delivers := [steadyPeer]

def steadyInvocation : Invocation := { chaincode := ⟨"", "cc", ""⟩, args := [] }

def steadyRequest : Request := .invoke steadyInvocation

/-- Before anything has been asked. -/
def beginning : Progress := { headers := epoch }

theorem writable_of_steadyRequest {built : BuiltProposal} {headers : HeaderSource}
    (h : buildProposal steadySigner "ch" steadyRequest epoch = .ok built headers) :
    built.proposal.Writable := by
  obtain ⟨channel, spec, transient, nonce, hchannel, hspec, hnonce, rfl, -⟩ :=
    buildProposal_ok_iff.1 h
  cases hchannel
  cases hspec
  cases hnonce
  constructor
  · decide +kernel
  · decide +kernel

/-- An invocation of steady nodes sends one envelope, which names the transaction that it
returns. -/
theorem ordering_safety_steadyNodes :
    ∃ tx q t envelope, (Submission.invoke steadyRequest).run steadySigner steadyEndpoints "ch"
        (some 10) beginning = .done (.ok tx) q ∧
      submissions q.asked = [⟨t, steadyOrderer.id, .send envelope⟩] ∧
      envelope.Names tx.txId "ch" := by
  obtain ⟨tx, q, hrun⟩ : ∃ tx q, (Submission.invoke steadyRequest).run steadySigner steadyEndpoints
      "ch" (some 10) beginning = .done (.ok tx) q :=
    Run.done_ok_of_value? (by decide +kernel)
  have hsent : (submissions ((Submission.invoke steadyRequest).run steadySigner steadyEndpoints
      "ch" (some 10) beginning).progress.asked).length = 1 := by
    decide +kernel
  obtain ⟨asked, hasked, -, -, honly, hif⟩ := Submission.ordering_safety (.invoke steadyRequest)
    steadySigner steadyEndpoints "ch" (some 10) beginning
  rw [hasked] at hsent
  obtain ⟨a, ha⟩ := List.length_eq_one_iff.1 hsent
  obtain ⟨-, built, signed, instant, hcleared, -⟩ := honly a (ha ▸ List.mem_singleton_self a)
  obtain ⟨headers, endorsedAt, hendorsed, -⟩ := hcleared.exists_endorsed
  obtain ⟨t, envelope, channel, hsubmissions, hchannel, hnames, htxId⟩ :=
    hif built signed instant hcleared (writable_of_steadyRequest hendorsed.build)
      (fun _ => ⟨_, rfl⟩) ⟨rfl, Progress.reaches_of_limit_none rfl _⟩
  cases hchannel
  rw [hrun] at hasked
  refine ⟨tx, q, t, envelope, hrun, ?_, ?_⟩
  · rw [show q.asked = asked from hasked]
    exact hsubmissions
  · rw [htxId tx q hrun]
    exact hnames

end LedgerClient
