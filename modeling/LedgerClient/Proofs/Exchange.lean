import LedgerClient.Proofs.Deadlines
/-!
# How a broadcast runs

* `Stream.Concludes`: how and when the exchange on a broadcast stream ends by itself.
  `submitEnvelope_ends`: so it ends where nothing stops it.  `Stream.Receives`: which receives
  belong to it.
* `broadcast_on_stream`: on a stream that opens, a broadcast sends once, receives once at most and
  closes once, after the exchange has ended.  Its result is that of the exchange under the deadline,
  whatever becomes of the close, and it comes no later than twice the timeout after the opening.
  A stream that does not open is asked nothing.
-/

namespace LedgerClient

/-! ## The exchange -/

/-- What a response of the orderer says about an envelope. -/
def BroadcastResponse.verdict (response : BroadcastResponse) : Except ClientError Unit :=
  if response.status = .success then .ok ()
  else .error (.broadcastRejected response.status response.info)

/-- An exchange that begins at an instant ends by itself at another: the stream does not take the
envelope, or it takes it and then brings a failure or a response. -/
inductive Stream.Concludes (s : Stream BroadcastResponse) (txId : String) (start : Nat) :
    Nat → Except ClientError Unit → Prop
  | unsent {t : Nat} {e : ClientError} : s.sending.ending? start = some (t, .error e) →
      Concludes s txId start t (.error e)
  | broken {sent t : Nat} {e : ClientError} : s.sending.ending? start = some (sent, .ok ()) →
      s.Brings txId sent t (.error e) → Concludes s txId start t (.error e)
  | answered {sent t : Nat} {response : BroadcastResponse} :
      s.sending.ending? start = some (sent, .ok ()) → s.Brings txId sent t (.ok response) →
      Concludes s txId start t response.verdict

/-- The receives of an exchange that begins at an instant under a deadline: one, if the stream takes
the envelope by then, and none otherwise. -/
inductive Stream.Receives (s : Stream BroadcastResponse) (start deadline : Nat) :
    List Asked → Prop
  | once {sent : Nat} : s.sending.ending? start = some (sent, .ok ()) → sent ≤ deadline →
      Receives s start deadline [⟨sent, s.node, .receive⟩]
  | never : (∀ sent, s.sending.ending? start = some (sent, .ok ()) → deadline < sent) →
      Receives s start deadline []

section Exchanges

variable {s : Stream BroadcastResponse} {envelope : Envelope} {txId : String} {p q : Progress}
  {start t t' milliseconds : Nat} {result result' : Except ClientError Unit}

theorem BroadcastResponse.verdict_eq_ok {response : BroadcastResponse} :
    response.verdict = .ok () ↔ response.status = .success := by
  rw [verdict]
  split
  · rename_i h
    exact iff_of_true rfl h
  · rename_i h
    exact iff_of_false nofun h

theorem Stream.Concludes.unique (h : s.Concludes txId start t result)
    (h' : s.Concludes txId start t' result') : t = t' ∧ result = result' := by
  cases h with
  | unsent hsend =>
    cases h' with
    | unsent hsend' =>
      cases hsend.symm.trans hsend'
      exact ⟨rfl, rfl⟩
    | broken hsend' => cases hsend.symm.trans hsend'
    | answered hsend' => cases hsend.symm.trans hsend'
  | broken hsend hbrings =>
    cases h' with
    | unsent hsend' => cases hsend.symm.trans hsend'
    | broken hsend' hbrings' =>
      cases hsend.symm.trans hsend'
      obtain ⟨rfl, heq⟩ := hbrings.unique hbrings'
      cases heq
      exact ⟨rfl, rfl⟩
    | answered hsend' hbrings' =>
      cases hsend.symm.trans hsend'
      cases (hbrings.unique hbrings').2
  | answered hsend hbrings =>
    cases h' with
    | unsent hsend' => cases hsend.symm.trans hsend'
    | broken hsend' hbrings' =>
      cases hsend.symm.trans hsend'
      cases (hbrings.unique hbrings').2
    | answered hsend' hbrings' =>
      cases hsend.symm.trans hsend'
      obtain ⟨rfl, heq⟩ := hbrings.unique hbrings'
      cases heq
      exact ⟨rfl, rfl⟩

/-- The exchange does not depend on the close of the stream. -/
theorem Stream.Concludes.withClosing (h : s.Concludes txId start t result)
    (closing : Reply Unit) : { s with closing := closing }.Concludes txId start t result := by
  cases h with
  | unsent hsend => exact .unsent hsend
  | broken hsend hbrings => exact .broken hsend (hbrings.withClosing closing)
  | answered hsend hbrings => exact .answered hsend (hbrings.withClosing closing)

theorem concludes_withClosing_iff (closing : Reply Unit) :
    { s with closing := closing }.Concludes txId start t result ↔
      s.Concludes txId start t result :=
  ⟨fun h => h.withClosing s.closing, fun h => h.withClosing closing⟩

/-- An exchange succeeds under a deadline exactly when the stream acknowledges in time. -/
theorem acknowledges_iff_concludes (s : Stream BroadcastResponse) (txId : String)
    (start milliseconds : Nat) :
    s.Acknowledges txId milliseconds ↔
      ∃ t ≤ start + milliseconds, s.Concludes txId start t (.ok ()) := by
  constructor
  · rintro ⟨hsent, reply, rest, message, hs, hreply, hstatus, hle⟩
    have hsend : s.sending.ending? start = some (start + s.sending.delay, .ok ()) :=
      Reply.ending?_eq_ok.2 ⟨hsent, rfl⟩
    have hend : reply.ending? (start + s.sending.delay) =
        some (start + s.sending.delay + reply.delay, .ok message) :=
      Reply.ending?_eq_ok.2 ⟨hreply, rfl⟩
    have hconcludes : s.Concludes txId start _ (message txId).verdict :=
      .answered hsend (.message hs hend)
    rw [BroadcastResponse.verdict_eq_ok.2 hstatus] at hconcludes
    exact ⟨_, by omega, hconcludes⟩
  · rintro ⟨t, hle, h⟩
    generalize hresult : Except.ok () = result at h
    cases h with
    | unsent => cases hresult
    | broken => cases hresult
    | @answered sent _ response hsend hbrings =>
      obtain ⟨hsent, rfl⟩ := Reply.ending?_eq_ok.1 hsend
      have hstatus := BroadcastResponse.verdict_eq_ok.1 hresult.symm
      cases hbrings with
      | message hs hend =>
        obtain ⟨hreply, rfl⟩ := Reply.ending?_eq_ok.1 hend
        exact ⟨hsent, _, _, _, hs, hreply, hstatus, by omega⟩

/-! ### Its run -/

theorem requireAcknowledgment_of_brings {brought : Except ClientError BroadcastResponse}
    (h : s.Brings p.lastTx p.clock t brought) (hreach : p.Reaches t) :
    ∃ q, requireAcknowledgment s p = .done (brought.bind (·.verdict)) q ∧ q.clock = t := by
  have hreceive := receive_of_brings h hreach
  cases brought with
  | error e => exact ⟨_, requireAcknowledgment_done_error.2 (.inl hreceive), rfl⟩
  | ok response =>
    refine ⟨{ p with asked := p.asked ++ [⟨p.clock, s.node, .receive⟩], clock := t }, ?_, rfl⟩
    rw [Except.bind, BroadcastResponse.verdict]
    split
    · rename_i hstatus
      exact requireAcknowledgment_done_ok.2 ⟨response, s.next, hreceive, hstatus⟩
    · rename_i hstatus
      exact requireAcknowledgment_done_error.2 (.inr ⟨response, s.next, hreceive, hstatus, rfl⟩)

theorem requireAcknowledgment_asked (s : Stream BroadcastResponse) (p : Progress) :
    (requireAcknowledgment s p).progress.asked =
      p.asked ++ [⟨p.clock, s.node, .receive⟩] := by
  rw [requireAcknowledgment, Client.bind_asked_eq, receive_asked]
  rintro ⟨response, next⟩ q
  dsimp only
  split <;> rfl

theorem submitEnvelope_of_sent (envelope : Envelope)
    (h : s.sending.ending? p.clock = some (t, .ok ())) (hreach : p.Reaches t) :
    submitEnvelope s envelope p =
      requireAcknowledgment s { p.submitted s.node envelope with clock := t } := by
  have hawait : Client.await s.sending (p.submitted s.node envelope) =
      .done (.ok ()) { p.submitted s.node envelope with clock := t } :=
    Client.await_of_ending h hreach
  rw [submitEnvelope_apply, Client.bind_of_ok hawait]

/-- The exchange ends as the stream concludes it. -/
theorem submitEnvelope_ends (s : Stream BroadcastResponse) (envelope : Envelope) (p : Progress) :
    (submitEnvelope s envelope).Ends p (s.Concludes envelope.txId p.clock) where
  done := by
    intro t result h hreach
    cases h with
    | unsent hsend =>
      have hawait : Client.await s.sending (p.submitted s.node envelope) = .done (.error _) _ :=
        Client.await_of_ending hsend hreach
      rw [submitEnvelope_apply]
      exact ⟨_, Client.bind_of_error hawait, rfl⟩
    | @broken sent _ _ hsend hbrings =>
      rw [submitEnvelope_of_sent envelope hsend (hreach.mono hbrings.le)]
      exact requireAcknowledgment_of_brings
        (p := { p.submitted s.node envelope with clock := sent }) hbrings hreach
    | @answered sent _ _ hsend hbrings =>
      rw [submitEnvelope_of_sent envelope hsend (hreach.mono hbrings.le)]
      exact requireAcknowledgment_of_brings
        (p := { p.submitted s.node envelope with clock := sent }) hbrings hreach
  stopped := by
    intro h
    by_cases hsent : ∃ t, s.sending.ending? p.clock = some (t, .ok ()) ∧ p.Reaches t
    · obtain ⟨sent, hsend, hreach⟩ := hsent
      rw [submitEnvelope_of_sent envelope hsend hreach]
      obtain ⟨q, hrun⟩ := receive_stopped (s := s)
        (p := { p.submitted s.node envelope with clock := sent }) hreach fun t brought hbrings => by
          cases brought with
          | error e => exact h t _ (.broken hsend hbrings)
          | ok response => exact h t _ (.answered hsend hbrings)
      exact ⟨q, Client.bind_of_stopped hrun⟩
    · obtain ⟨clock, hrun⟩ := Client.await_stopped (r := s.sending)
        (p := p.submitted s.node envelope) fun t result hsend hreach => by
          cases result with
          | error e => exact h t _ (.unsent hsend) hreach
          | ok _ => exact hsent ⟨t, hsend, hreach⟩
      rw [submitEnvelope_apply]
      exact ⟨_, Client.bind_of_stopped hrun⟩

/-- The envelope is sent, and a message is received once the stream has taken it. -/
theorem submitEnvelope_receives (s : Stream BroadcastResponse) (envelope : Envelope)
    {deadline : Nat} (hreach : ∀ instant, p.Reaches instant ↔ instant ≤ deadline) :
    ∃ received, s.Receives p.clock deadline received ∧
      (submitEnvelope s envelope p).progress.asked =
        p.asked ++ ⟨p.clock, s.node, .send envelope⟩ :: received := by
  by_cases hsent : ∃ t ≤ deadline, s.sending.ending? p.clock = some (t, .ok ())
  · obtain ⟨t, hle, hsend⟩ := hsent
    refine ⟨_, .once hsend hle, ?_⟩
    rw [submitEnvelope_of_sent envelope hsend ((hreach t).2 hle), requireAcknowledgment_asked]
    exact List.append_assoc _ _ _
  · have hnever : ∀ t, s.sending.ending? p.clock = some (t, .ok ()) → deadline < t :=
      fun t hsend => Nat.lt_of_not_le fun hle => hsent ⟨t, hle, hsend⟩
    refine ⟨[], .never hnever, ?_⟩
    rw [submitEnvelope_apply]
    have hasked := Client.await_asked s.sending (p.submitted s.node envelope)
    cases hrun : Client.await s.sending (p.submitted s.node envelope) with
    | done r q =>
      rw [hrun] at hasked
      cases r with
      | ok _ =>
        obtain ⟨ho, hin, -⟩ := Client.await_done_ok.1 hrun
        exact absurd ((hreach _).1 hin)
          (Nat.not_le.2 (hnever _ (Reply.ending?_eq_ok.2 ⟨ho, rfl⟩)))
      | error e =>
        rw [Client.bind_of_error hrun]
        exact hasked
    | stopped q =>
      rw [hrun] at hasked
      rw [Client.bind_of_stopped hrun]
      exact hasked

/-- The exchange ends under its deadline, and then the stream is closed, for as long again at
most. -/
theorem exchange_run (s : Stream BroadcastResponse) (envelope : Envelope) (milliseconds : Nat)
    (hlimit : p.limit = none) :
    ∃ t result q received, exchange s envelope milliseconds p = .done result q ∧
      ByDeadline (s.Concludes envelope.txId p.clock) (p.clock + milliseconds)
        (.timeout "broadcast" milliseconds) t result ∧
      s.Receives p.clock (p.clock + milliseconds) received ∧
      q.asked = p.asked ++ ⟨p.clock, s.node, .send envelope⟩ ::
        (received ++ [⟨t, s.node, .close⟩]) ∧
      q.clock ≤ t + milliseconds := by
  let expired := ClientError.timeout "broadcast" milliseconds
  obtain ⟨received, hreceives, hsubmitted⟩ := submitEnvelope_receives s envelope
    (Client.reaches_deadline hlimit milliseconds)
  obtain ⟨t, result, q₁, hsubmit, hby, rfl, hlimit₁⟩ :=
    (submitEnvelope_ends s envelope _).within hlimit expired
  obtain ⟨t', closed, q₂, hclose, hby', rfl, -⟩ := (close_ends s _).within hlimit₁ expired
  have hasked₁ := Client.within_asked milliseconds expired (submitEnvelope s envelope) p
  have hasked₂ := Client.within_asked milliseconds expired s.close q₁
  rw [hsubmit, hsubmitted] at hasked₁
  rw [hclose, close_asked] at hasked₂
  refine ⟨q₁.clock, result, q₂, received, ?_, hby, hreceives, ?_, hby'.le⟩
  · exact Client.attempt_bind_done.2 ⟨result, q₁, hsubmit,
      Client.attempt_bind_done.2 ⟨closed, q₂, hclose, rfl⟩⟩
  · rw [show q₂.asked = _ from hasked₂, show q₁.asked = _ from hasked₁, List.append_assoc]
    rfl

end Exchanges

/-! ## The whole broadcast -/

section Broadcasts

variable {o o' : Orderer} {p : Progress}

/-- Two orderers whose broadcast streams differ at most in how their close goes. -/
structure Orderer.AlikeButClosing (o o' : Orderer) : Prop where
  id : o'.id = o.id
  sessions : ∀ number, ∃ closing,
    o'.broadcast number = { o.broadcast number with closing := closing }

theorem Orderer.AlikeButClosing.nextBroadcast (h : o.AlikeButClosing o') (p : Progress) :
    ∃ closing, o'.nextBroadcast p = { o.nextBroadcast p with closing := closing } := by
  rw [Orderer.nextBroadcast, Orderer.nextBroadcast, h.id]
  exact h.sessions _

/-- On a stream that opens, the broadcast is the exchange. -/
theorem broadcast_of_opens (envelope : Envelope) (milliseconds : Nat) (hlimit : p.limit = none)
    (hopens : (o.nextBroadcast p).opening.outcome = .answered ()) :
    broadcastEnvelope o envelope milliseconds p =
      exchange (o.nextStream p) envelope milliseconds (o.openedAt p) := by
  have hopen : o.openBroadcast p = .done (.ok (o.nextStream p)) (o.openedAt p) :=
    Orderer.openBroadcast_done_ok.2
      ⟨⟨hopens, Progress.reaches_of_limit_none hlimit _⟩, rfl, rfl⟩
  rw [Orderer.broadcastEnvelope_eq, Client.bind_of_ok hopen]

/-- A stream that does not open is asked nothing. -/
theorem broadcast_of_not_opens (envelope : Envelope) (milliseconds : Nat)
    (hlimit : p.limit = none) :
    (∀ e, (o.nextBroadcast p).opening.outcome = .failed e →
      ∃ q, broadcastEnvelope o envelope milliseconds p = .done (.error e) q ∧
        q.asked = p.asked ++ [⟨p.clock, o.id, .openBroadcast⟩]) ∧
    ((o.nextBroadcast p).opening.outcome = .silent →
      ∃ q, broadcastEnvelope o envelope milliseconds p = .stopped q ∧
        q.asked = p.asked ++ [⟨p.clock, o.id, .openBroadcast⟩]) := by
  have hawait := Client.await_of_reaches (r := (o.nextBroadcast p).opening) (p := o.openingAt p)
    (Progress.reaches_of_limit_none hlimit _)
  refine ⟨fun e he => ?_, fun hs => ?_⟩
  · rw [he] at hawait
    have hopen : o.openBroadcast p = .done (.error e) _ :=
      (o.openBroadcast_apply p).trans (Client.bind_of_error hawait)
    exact ⟨_, Client.bind_of_error hopen, rfl⟩
  · rw [hs] at hawait
    have hopen : o.openBroadcast p = .stopped _ :=
      (o.openBroadcast_apply p).trans (Client.bind_of_stopped hawait)
    exact ⟨_, Client.bind_of_stopped hopen, rfl⟩

/-- What a broadcast does and gives, whatever the orderer does.

If the stream opens, the envelope is sent, a message is received if the stream has taken the
envelope in time, and the stream is closed once the exchange has ended.  The result is that of the
exchange under the deadline, so it is a success exactly if the stream acknowledges in time, and it
is the same however the close goes.  It comes no later than twice the timeout after the opening.

If the stream fails to open, that is the result, and if it never opens, there is none.  Nothing is
asked after the opening in either case. -/
theorem broadcast_on_stream (o : Orderer) (envelope : Envelope) (milliseconds : Nat)
    (hlimit : p.limit = none) :
    let opening := (o.nextBroadcast p).opening
    let s := o.nextStream p
    let opened := p.clock + opening.delay
    (opening.outcome = .answered () →
      ∃ t result q received, broadcastEnvelope o envelope milliseconds p = .done result q ∧
        q.asked = p.asked ++ ⟨p.clock, o.id, .openBroadcast⟩ ::
          ⟨opened, o.id, .send envelope⟩ :: (received ++ [⟨t, o.id, .close⟩]) ∧
        s.Receives opened (opened + milliseconds) received ∧
        ByDeadline (s.Concludes envelope.txId opened) (opened + milliseconds)
          (.timeout "broadcast" milliseconds) t result ∧
        (result = .ok () ↔ s.Acknowledges envelope.txId milliseconds) ∧
        q.clock ≤ opened + 2 * milliseconds ∧
        ∀ o', o.AlikeButClosing o' →
          ∃ q', broadcastEnvelope o' envelope milliseconds p = .done result q') ∧
    (∀ e, opening.outcome = .failed e →
      ∃ q, broadcastEnvelope o envelope milliseconds p = .done (.error e) q ∧
        q.asked = p.asked ++ [⟨p.clock, o.id, .openBroadcast⟩]) ∧
    (opening.outcome = .silent →
      ∃ q, broadcastEnvelope o envelope milliseconds p = .stopped q ∧
        q.asked = p.asked ++ [⟨p.clock, o.id, .openBroadcast⟩]) := by
  intro opening s opened
  refine ⟨fun hopens => ?_, broadcast_of_not_opens envelope milliseconds hlimit⟩
  obtain ⟨t, result, q, received, hrun, hby, hreceives, hasked, hclock⟩ :=
    exchange_run s envelope milliseconds (p := o.openedAt p) hlimit
  rw [← broadcast_of_opens envelope milliseconds hlimit hopens] at hrun
  refine ⟨t, result, q, received, hrun, ?_, hreceives, hby, ?_, ?_, fun o' halike => ?_⟩
  · rw [hasked]
    exact (List.append_cons _ _ _).symm
  · rw [acknowledges_iff_concludes s envelope.txId opened]
    constructor
    · rintro rfl
      exact ⟨t, hby.of_ok.2, hby.of_ok.1⟩
    · rintro ⟨t', hle, hconcludes⟩
      exact (hby.unique (fun _ _ _ _ => Stream.Concludes.unique) (.inTime hconcludes hle)).2
  · have hle := hby.le
    change t ≤ opened + milliseconds at hle
    omega
  · -- The other stream opens at the same instant and concludes the same exchange.
    obtain ⟨closing, hsession⟩ := halike.nextBroadcast p
    have hopens' : (o'.nextBroadcast p).opening.outcome = .answered () := by
      rw [hsession]
      exact hopens
    have hopened : (o'.openedAt p).clock = opened := by
      change p.clock + (o'.nextBroadcast p).opening.delay = opened
      rw [hsession]
    have hstream : o'.nextStream p = { s with closing := closing } := by
      rw [Orderer.nextStream, hsession, halike.id]
      rfl
    obtain ⟨t', result', q', -, hrun', hby', -⟩ :=
      exchange_run (o'.nextStream p) envelope milliseconds (p := o'.openedAt p) hlimit
    rw [← broadcast_of_opens envelope milliseconds hlimit hopens'] at hrun'
    rw [hopened, hstream, ByDeadline.congr fun _ _ => concludes_withClosing_iff closing] at hby'
    obtain ⟨-, rfl⟩ := hby.unique (fun _ _ _ _ => Stream.Concludes.unique) hby'
    exact ⟨q', hrun'⟩

end Broadcasts

/-! ### A close that stalls -/

/-- An acknowledgment that comes after two milliseconds. -/
def lateSuccess : Reply (String → BroadcastResponse) where
  delay := 2
  outcome := .answered fun _ => ⟨.success, ""⟩

/-- An orderer that acknowledges every envelope, but never finishes closing a stream. -/
def stallingOrderer : Orderer where
  id := ⟨.orderer, 0, "orderer:7050"⟩
  broadcast := fun _ => {
    opening := { delay := 1, outcome := .answered () }
    sending := { delay := 1, outcome := .answered () }
    receiving := [lateSuccess]
    closing := { outcome := .silent } }
  deliver := fun _ => {}

/-- The envelope is acknowledged after four milliseconds, and the close is given up. -/
theorem broadcast_on_stream_stallingOrderer :
    let p : Progress := { headers := ⟨⟨0, 0⟩, 0⟩ }
    p.limit = none ∧
      ∃ q, broadcastEnvelope stallingOrderer ⟨[], []⟩ 10 p = .done (.ok ()) q ∧
        q.asked = [⟨0, stallingOrderer.id, .openBroadcast⟩,
          ⟨1, stallingOrderer.id, .send ⟨[], []⟩⟩, ⟨2, stallingOrderer.id, .receive⟩,
          ⟨4, stallingOrderer.id, .close⟩] ∧
        q.clock ≤ 21 := by
  intro p
  have hlimit : p.limit = none := rfl
  obtain ⟨t, result, q, received, hrun, hasked, hreceives, hby, -, hclock, -⟩ :=
    (broadcast_on_stream stallingOrderer ⟨[], []⟩ 10 hlimit).1 rfl
  have hend : lateSuccess.ending? 2 = some (4, .ok fun _ => ⟨.success, ""⟩) := rfl
  have hconcludes : (stallingOrderer.nextStream p).Concludes (⟨[], []⟩ : Envelope).txId 1 4
      (.ok ()) := .answered rfl (.message rfl hend)
  obtain ⟨rfl, rfl⟩ :=
    hby.unique (fun _ _ _ _ => Stream.Concludes.unique) (.inTime hconcludes (by decide))
  refine ⟨hlimit, q, hrun, ?_, hclock⟩
  cases hreceives with
  | once hsend =>
    cases hsend
    exact hasked
  | never hlate => exact absurd (hlate 2 rfl) (by decide)

end LedgerClient
