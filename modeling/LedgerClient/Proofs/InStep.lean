import LedgerClient.Proofs.Broadcast
/-!
# Runs at another time

What a client does next does not depend on when it does it, on what it has asked before, or on how
often endorsers have been asked.  Two clients that differ in this way only stay so.

* `Progress.InStep`, `Run.InStep`, `Client.InStep`: states, runs and computations that differ by
  such a shift.  This is kept by every way of putting computations together.
* `Orderer.openBroadcast_inStep`, `broadcastEnvelope_inStep`: a broadcast ends in the same way at
  every time, and with every envelope of a transaction.
-/

namespace LedgerClient

variable {α β : Type} {s s' : Nat} {p p' : Progress}

/-- One client is as far from an instant as another client is from another instant; the limits of
both are too, and orderer and deliver peers have been called as often by both. -/
structure Progress.InStep (s s' : Nat) (p p' : Progress) : Prop where
  clock : p.clock + s' = p'.clock + s
  limit : p.limit.map (· + s') = p'.limit.map (· + s)
  headers : p'.headers = p.headers
  calls : ∀ node service, service ≠ .endorser → p'.calls node service = p.calls node service
  lastTx : p'.lastTx = p.lastTx

namespace Progress.InStep

theorem at_clock (h : p.InStep s s' p') {t t' : Nat} (ht : t + s' = t' + s) :
    InStep s s' { p with clock := t } { p' with clock := t' } :=
  { h with clock := ht }

theorem note (h : p.InStep s s' p') (a a' : List Asked) :
    InStep s s' { p with asked := a } { p' with asked := a' } :=
  { h with }

/-- The earlier one of limit and deadline is as far for both. -/
theorem before (h : p.InStep s s' p') {t t' : Nat} (ht : t + s' = t' + s) :
    p.before t + s' = p'.before t' + s := by
  have hlimit := h.limit
  rw [Progress.before, Progress.before]
  cases hp : p.limit with
  | none =>
    cases hp' : p'.limit with
    | none => exact ht
    | some limit' =>
      rw [hp, hp'] at hlimit
      cases hlimit
  | some limit =>
    cases hp' : p'.limit with
    | none =>
      rw [hp, hp'] at hlimit
      cases hlimit
    | some limit' =>
      rw [hp, hp'] at hlimit
      have heq : limit + s' = limit' + s := Option.some.inj hlimit
      dsimp only
      omega

theorem reaches_iff (h : p.InStep s s' p') {t t' : Nat} (ht : t + s' = t' + s) :
    p.Reaches t ↔ p'.Reaches t' := by
  have hbefore := h.before ht
  rw [Reaches, Reaches]
  omega

/-- Clients without limit are as far from their own present. -/
theorem of_limit_none (hlimit : p.limit = none) (hlimit' : p'.limit = none)
    (hheaders : p'.headers = p.headers)
    (hcalls : ∀ node service, service ≠ .endorser → p'.calls node service = p.calls node service)
    (hlastTx : p'.lastTx = p.lastTx) : p.InStep p.clock p'.clock p' :=
  ⟨Nat.add_comm _ _, by rw [hlimit, hlimit']; rfl, hheaders, hcalls, hlastTx⟩

end Progress.InStep

/-- Two runs end alike, in states in step, or both are stopped. -/
inductive Run.InStep (s s' : Nat) : Run α → Run α → Prop
  | done {r : Except ClientError α} {p p' : Progress} : p.InStep s s' p' →
      Run.InStep s s' (.done r p) (.done r p')
  | stopped {p p' : Progress} : p.InStep s s' p' → Run.InStep s s' (.stopped p) (.stopped p')

/-- Two computations that start in step end alike. -/
def Client.InStep (s s' : Nat) (x x' : Client α) : Prop :=
  ∀ ⦃p p' : Progress⦄, p.InStep s s' p' → (x p).InStep s s' (x' p')

namespace Client.InStep

theorem pure (a : α) : InStep s s' (pure a) (pure a) := fun _ _ h => .done h

theorem lift (r : Except ClientError α) : InStep s s' (liftM r) (liftM r) := fun _ _ h => .done h

theorem bind {x x' : Client α} {f f' : α → Client β} (hx : InStep s s' x x')
    (hf : ∀ a, InStep s s' (f a) (f' a)) : InStep s s' (x >>= f) (x' >>= f') := by
  intro p p' h
  have hrun := hx h
  generalize hxp : x p = run at hrun
  generalize hxp' : x' p' = run' at hrun
  cases hrun with
  | @done r q q' hq =>
    cases r with
    | ok a =>
      rw [bind_of_ok hxp, bind_of_ok hxp']
      exact hf a hq
    | error e =>
      rw [bind_of_error hxp, bind_of_error hxp']
      exact .done hq
  | stopped hq =>
    rw [bind_of_stopped hxp, bind_of_stopped hxp']
    exact .stopped hq

theorem attempt {x x' : Client α} (hx : InStep s s' x x') :
    InStep s s' (attempt x) (attempt x') := by
  intro p p' h
  have hrun := hx h
  rw [attempt_apply, attempt_apply]
  generalize x p = run at hrun ⊢
  generalize x' p' = run' at hrun ⊢
  cases hrun with
  | done hq => exact .done hq
  | stopped hq => exact .stopped hq

theorem note (node : NodeId) (call call' : Call) :
    InStep s s' (note node call) (note node call') := fun _ _ h => .done (h.note _ _)

/-- Both go on with the same id in place of the last transaction. -/
theorem modify_lastTx (txId : String) :
    InStep s s' (modify fun p => { p with lastTx := txId })
      (modify fun p => { p with lastTx := txId }) :=
  fun _ _ h => .done { h with lastTx := rfl }

/-- What depends on the last transaction is the same. -/
theorem lastTx (f : String → α) :
    InStep s s' (do return f (← progress).lastTx) (do return f (← progress).lastTx) := by
  intro p p' h
  change Run.InStep s s' (.done (.ok (f p.lastTx)) p) (.done (.ok (f p'.lastTx)) p')
  rw [h.lastTx]
  exact .done h

theorem number (node : NodeId) {service : Service} (hservice : service ≠ .endorser) :
    InStep s s' (number node service) (number node service) := by
  intro p p' h
  change Run.InStep s s'
    (.done (.ok (p.calls node service)) { p with calls := countCall p.calls node service })
    (.done (.ok (p'.calls node service)) { p' with calls := countCall p'.calls node service })
  rw [h.calls node service hservice]
  refine .done { h with calls := fun n other hother => ?_ }
  change countCall p'.calls node service n other = countCall p.calls node service n other
  rw [countCall, countCall, h.calls n other hother]

theorem never : InStep s s' (never : Client α) never := by
  intro p p' h
  refine .stopped (h.at_clock ?_)
  have hlimit := h.limit
  cases hp : p.limit with
  | none =>
    rw [hp] at hlimit
    rw [Option.map_eq_none_iff.1 hlimit.symm]
    exact h.clock
  | some limit =>
    rw [hp] at hlimit
    obtain ⟨limit', hp', heq⟩ := Option.map_eq_some_iff.1 hlimit.symm
    rw [hp']
    exact heq.symm

theorem await (r : Reply α) : InStep s s' (await r) (await r) := by
  intro p p' h
  have ht : p.clock + r.delay + s' = p'.clock + r.delay + s := by
    have hclock := h.clock
    omega
  by_cases hreach : p.Reaches (p.clock + r.delay)
  · rw [await_of_reaches hreach, await_of_reaches ((h.reaches_iff ht).1 hreach)]
    cases r.outcome with
    | answered a => exact .done (h.at_clock ht)
    | failed e => exact .done (h.at_clock ht)
    | silent => exact never (h.at_clock ht)
  · rw [await_of_not_reaches hreach, await_of_not_reaches (mt (h.reaches_iff ht).2 hreach)]
    exact .stopped (h.at_clock (h.before ht))

theorem within {x x' : Client α} (hx : InStep s s' x x') (milliseconds : Nat)
    (expired : ClientError) :
    InStep s s' (within milliseconds expired x) (within milliseconds expired x') := by
  intro p p' h
  have ht : p.clock + milliseconds + s' = p'.clock + milliseconds + s := by
    have hclock := h.clock
    omega
  have hstart : Progress.InStep s s'
      { p with limit := some (p.before (p.clock + milliseconds)) }
      { p' with limit := some (p'.before (p'.clock + milliseconds)) } :=
    { h with limit := congrArg some (h.before ht) }
  have hrun := hx hstart
  rw [within_apply, within_apply]
  generalize x _ = run at hrun ⊢
  generalize x' _ = run' at hrun ⊢
  cases hrun with
  | done hq => exact .done { hq with limit := h.limit }
  | stopped hq =>
    dsimp only
    by_cases hreach : p.Reaches (p.clock + milliseconds)
    · rw [if_pos hreach, if_pos ((h.reaches_iff ht).1 hreach)]
      exact .done { hq with clock := ht, limit := h.limit }
    · rw [if_neg hreach, if_neg (mt (h.reaches_iff ht).2 hreach)]
      exact .stopped { hq with limit := h.limit }

end Client.InStep

/-! ## Broadcasts -/

namespace Stream

theorem submit_inStep (stream : Stream α) {envelope envelope' : Envelope}
    (h : envelope'.txId = envelope.txId) :
    Client.InStep s s' (stream.submit envelope) (stream.submit envelope') := by
  rw [submit, submit, h]
  exact .bind (.modify_lastTx _) fun _ => .bind (.note _ _ _) fun _ => .await _

theorem receive_inStep (stream : Stream α) :
    Client.InStep s s' stream.receive stream.receive := by
  rw [receive]
  refine .bind (.note _ _ _) fun _ => ?_
  split
  · exact .never
  · exact .lift (.error _)
  · exact .bind (.await _) fun message => .lastTx fun txId => (message txId, stream.next)

theorem close_inStep (stream : Stream α) : Client.InStep s s' stream.close stream.close :=
  .bind (.note _ _ _) fun _ => .await _

end Stream

/-- The next stream opens for both, or for none. -/
theorem Progress.InStep.opens_iff (h : p.InStep s s' p') (o : Orderer) :
    o.Opens p ↔ o.Opens p' := by
  have hclock := h.clock
  rw [Orderer.Opens, Orderer.Opens,
    Orderer.nextBroadcast_congr (h.calls o.id .broadcast Service.noConfusion)]
  exact and_congr_right fun _ => h.reaches_iff (by omega)

theorem Orderer.openBroadcast_inStep (o : Orderer) :
    Client.InStep s s' o.openBroadcast o.openBroadcast :=
  .bind (.number _ Service.noConfusion) fun _ => .bind (.note _ _ _) fun _ =>
    .bind (.await _) fun _ => .pure _

theorem submitEnvelope_inStep (stream : Stream BroadcastResponse) {envelope envelope' : Envelope}
    (h : envelope'.txId = envelope.txId) :
    Client.InStep s s' (submitEnvelope stream envelope) (submitEnvelope stream envelope') := by
  refine .bind (stream.submit_inStep h) fun _ => .bind stream.receive_inStep fun response => ?_
  dsimp only
  split
  · exact .lift (.error _)
  · exact .pure _

/-- A broadcast ends in the same way whenever it begins, and whichever envelope of a transaction
is sent. -/
theorem broadcastEnvelope_inStep (o : Orderer) {envelope envelope' : Envelope}
    (h : envelope'.txId = envelope.txId) (milliseconds : Nat) :
    Client.InStep s s' (broadcastEnvelope o envelope milliseconds)
      (broadcastEnvelope o envelope' milliseconds) :=
  .bind o.openBroadcast_inStep fun stream =>
    .bind (.attempt (.within (submitEnvelope_inStep stream h) _ _)) fun result =>
      .bind (.attempt (.within stream.close_inStep _ _)) fun _ => .lift result

end LedgerClient
