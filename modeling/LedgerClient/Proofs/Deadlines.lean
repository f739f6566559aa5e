import LedgerClient.Proofs.Broadcast
/-!
# Calls under a deadline

When and how calls end, and what a deadline makes of that.

* `Client.Ends`: a computation ends at an instant with a result, if nothing stops it before that.
  `ByDeadline`: it ends in the same way under a deadline, if that is by the deadline, and expires
  otherwise.  `Client.Ends.within` joins the two.
* `Stream.Brings`: what the next receive on a stream brings, and when.  `receive_of_brings`,
  `receive_stopped`: how the receive runs.
* `close_ends`: how and when the close of a stream ends.
-/

namespace LedgerClient

variable {α β : Type} {p q : Progress} {milliseconds t t' : Nat} {expired : ClientError}

/-! ## Deadlines -/

/-- What a deadline makes of a computation that ends by itself at an instant with a result.  What
comes at the deadline itself comes in time. -/
inductive ByDeadline (ends : Nat → Except ClientError α → Prop) (deadline : Nat)
    (expired : ClientError) : Nat → Except ClientError α → Prop
  | inTime {t : Nat} {result : Except ClientError α} : ends t result → t ≤ deadline →
      ByDeadline ends deadline expired t result
  | late : (∀ t result, ends t result → deadline < t) →
      ByDeadline ends deadline expired deadline (.error expired)

namespace ByDeadline

variable {ends : Nat → Except ClientError α → Prop} {deadline : Nat}
  {result result' : Except ClientError α}

theorem le (h : ByDeadline ends deadline expired t result) : t ≤ deadline := by
  cases h with
  | inTime _ hle => exact hle
  | late _ => exact le_rfl

/-- The end under a deadline is unique if the end without it is. -/
theorem unique (hends : ∀ t t' r r', ends t r → ends t' r' → t = t' ∧ r = r')
    (h : ByDeadline ends deadline expired t result)
    (h' : ByDeadline ends deadline expired t' result') : t = t' ∧ result = result' := by
  cases h with
  | inTime h hle =>
    cases h' with
    | inTime h' _ => exact hends _ _ _ _ h h'
    | late hlate => exact absurd (hlate _ _ h) (Nat.not_lt.2 hle)
  | late hlate =>
    cases h' with
    | inTime h' hle => exact absurd (hlate _ _ h') (Nat.not_lt.2 hle)
    | late _ => exact ⟨rfl, rfl⟩

theorem congr {ends' : Nat → Except ClientError α → Prop} (h : ∀ t r, ends t r ↔ ends' t r) :
    ByDeadline ends deadline expired t result ↔ ByDeadline ends' deadline expired t result := by
  rw [funext fun t => funext fun r => propext (h t r)]

/-- Only what ends in time succeeds. -/
theorem of_ok {a : α} (h : ByDeadline ends deadline expired t (.ok a)) :
    ends t (.ok a) ∧ t ≤ deadline := by
  cases h with
  | inTime h hle => exact ⟨h, hle⟩

end ByDeadline

namespace Client

/-- From a state on, a computation ends at an instant with a result, where nothing stops it before
that; without any such end it is stopped. -/
structure Ends (x : Client α) (p : Progress) (ends : Nat → Except ClientError α → Prop) :
    Prop where
  done : ∀ {t result}, ends t result → p.Reaches t → ∃ q, x p = .done result q ∧ q.clock = t
  stopped : (∀ t result, ends t result → ¬p.Reaches t) → ∃ q, x p = .stopped q

/-- A deadline is all that stops a client that nothing else stops. -/
theorem reaches_deadline (hlimit : p.limit = none) (milliseconds instant : Nat) :
    { p with limit := some (p.before (p.clock + milliseconds)) }.Reaches instant ↔
      instant ≤ p.clock + milliseconds :=
  Progress.reaches_within.trans (and_iff_left (Progress.reaches_of_limit_none hlimit _))

theorem Ends.within {x : Client α} {ends : Nat → Except ClientError α → Prop}
    (hlimit : p.limit = none)
    (h : x.Ends { p with limit := some (p.before (p.clock + milliseconds)) } ends)
    (expired : ClientError) :
    ∃ t result q, within milliseconds expired x p = .done result q ∧
      ByDeadline ends (p.clock + milliseconds) expired t result ∧ q.clock = t ∧
      q.limit = none := by
  have hreach := reaches_deadline hlimit milliseconds
  by_cases hends : ∃ t result, ends t result ∧ t ≤ p.clock + milliseconds
  · obtain ⟨t, result, hend, hle⟩ := hends
    obtain ⟨q, hrun, hclock⟩ := h.done hend ((hreach t).2 hle)
    refine ⟨t, result, { q with limit := p.limit }, ?_, .inTime hend hle, hclock, hlimit⟩
    rw [within_apply, hrun]
  · have hlate : ∀ t result, ends t result → p.clock + milliseconds < t :=
      fun t result hend => Nat.lt_of_not_le fun hle => hends ⟨t, result, hend, hle⟩
    obtain ⟨q, hrun⟩ := h.stopped fun t result hend hin =>
      absurd ((hreach t).1 hin) (Nat.not_le.2 (hlate t result hend))
    refine ⟨p.clock + milliseconds, .error expired,
      { q with clock := p.clock + milliseconds, limit := p.limit }, ?_, .late hlate, rfl, hlimit⟩
    rw [within_apply, hrun]
    exact if_pos (Progress.reaches_of_limit_none hlimit _)

/-! ## Calls -/

theorem await_of_ending {r : Reply α} {result : Except ClientError α}
    (h : r.ending? p.clock = some (t, result)) (hreach : p.Reaches t) :
    await r p = .done result { p with clock := t } := by
  obtain ⟨rfl, ⟨a, ha, rfl⟩ | ⟨e, he, rfl⟩⟩ := Reply.ending?_eq_some.1 h
  · exact await_done_ok.2 ⟨ha, hreach, rfl⟩
  · exact await_done_error.2 ⟨he, hreach, rfl⟩

theorem await_stopped {r : Reply α}
    (h : ∀ t result, r.ending? p.clock = some (t, result) → ¬p.Reaches t) :
    ∃ clock, await r p = .stopped { p with clock := clock } := by
  by_cases hreach : p.Reaches (p.clock + r.delay)
  · rw [await_of_reaches hreach]
    cases ho : r.outcome with
    | answered a =>
      exact absurd hreach (h _ (.ok a) (Reply.ending?_eq_some.2 ⟨rfl, .inl ⟨a, ho, rfl⟩⟩))
    | failed e =>
      exact absurd hreach (h _ (.error e) (Reply.ending?_eq_some.2 ⟨rfl, .inr ⟨e, ho, rfl⟩⟩))
    | silent => exact ⟨_, rfl⟩
  · rw [await_of_not_reaches hreach]
    exact ⟨_, rfl⟩

end Client

theorem Reply.le_of_ending {r : Reply α} {start : Nat} {result : Except ClientError α}
    (h : r.ending? start = some (t, result)) : start ≤ t := by
  rw [(ending?_eq_some.1 h).1]
  exact Nat.le_add_right _ _

/-! ## Streams -/

section Streams

variable {s : Stream α} {txId : String}

/-- The next receive, which begins at an instant, ends at another with a message or a failure. -/
inductive Stream.Brings (s : Stream α) (txId : String) (start : Nat) :
    Nat → Except ClientError α → Prop
  | message {r : Reply (String → α)} {rest : List (Reply (String → α))} {message : String → α}
      {t : Nat} : s.receiving = r :: rest → r.ending? start = some (t, .ok message) →
      Brings s txId start t (.ok (message txId))
  | failed {r : Reply (String → α)} {rest : List (Reply (String → α))} {e : ClientError}
      {t : Nat} : s.receiving = r :: rest → r.ending? start = some (t, .error e) →
      Brings s txId start t (.error e)
  | ended {e : ClientError} : s.receiving = [] → s.ended = some e →
      Brings s txId start start (.error e)

theorem Stream.Brings.le {start : Nat} {result : Except ClientError α}
    (h : s.Brings txId start t result) : start ≤ t := by
  cases h with
  | message _ hend => exact Reply.le_of_ending hend
  | failed _ hend => exact Reply.le_of_ending hend
  | ended => exact le_rfl

theorem Stream.Brings.unique {start : Nat} {result result' : Except ClientError α}
    (h : s.Brings txId start t result) (h' : s.Brings txId start t' result') :
    t = t' ∧ result = result' := by
  cases h with
  | message hs hend =>
    cases h' with
    | message hs' hend' =>
      cases hs.symm.trans hs'
      cases hend.symm.trans hend'
      exact ⟨rfl, rfl⟩
    | failed hs' hend' =>
      cases hs.symm.trans hs'
      cases hend.symm.trans hend'
    | ended hs' => cases hs.symm.trans hs'
  | failed hs hend =>
    cases h' with
    | message hs' hend' =>
      cases hs.symm.trans hs'
      cases hend.symm.trans hend'
    | failed hs' hend' =>
      cases hs.symm.trans hs'
      cases hend.symm.trans hend'
      exact ⟨rfl, rfl⟩
    | ended hs' => cases hs.symm.trans hs'
  | ended hs he =>
    cases h' with
    | message hs' => cases hs.symm.trans hs'
    | failed hs' => cases hs.symm.trans hs'
    | ended _ he' =>
      cases he.symm.trans he'
      exact ⟨rfl, rfl⟩

/-- What a stream brings does not depend on its close. -/
theorem Stream.Brings.withClosing {start : Nat} {result : Except ClientError α}
    (h : s.Brings txId start t result) (closing : Reply Unit) :
    { s with closing := closing }.Brings txId start t result := by
  cases h with
  | message hs hend => exact .message hs hend
  | failed hs hend => exact .failed hs hend
  | ended hs he => exact .ended hs he

theorem send_of_ending {result : Except ClientError Unit} (envelope : Envelope)
    (h : s.sending.ending? p.clock = some (t, result)) (hreach : p.Reaches t) :
    s.send envelope p = .done result { p with
      asked := p.asked ++ [⟨p.clock, s.node, .send envelope⟩], clock := t } := by
  rw [Stream.send, Client.bind_of_ok (Client.note_apply _ _ _)]
  exact Client.await_of_ending h hreach

theorem send_stopped (envelope : Envelope)
    (h : ∀ t result, s.sending.ending? p.clock = some (t, result) → ¬p.Reaches t) :
    ∃ q, s.send envelope p = .stopped q := by
  rw [Stream.send, Client.bind_of_ok (Client.note_apply _ _ _)]
  obtain ⟨clock, hrun⟩ := Client.await_stopped
    (p := { p with asked := p.asked ++ [⟨p.clock, s.node, .send envelope⟩] }) h
  exact ⟨_, hrun⟩

theorem receive_of_brings {result : Except ClientError α}
    (h : s.Brings p.lastTx p.clock t result) (hreach : p.Reaches t) :
    s.receive p = .done (result.map fun a => (a, s.next)) { p with
      asked := p.asked ++ [⟨p.clock, s.node, .receive⟩], clock := t } := by
  cases h with
  | @message r rest message t hs hend =>
    let asking : Progress := { p with asked := p.asked ++ [⟨p.clock, s.node, .receive⟩] }
    have hawait : Client.await r asking = .done (.ok message) { asking with clock := t } :=
      Client.await_of_ending hend hreach
    rw [receive_cons_apply hs, Client.bind_of_ok hawait]
    rfl
  | @failed r rest e t hs hend =>
    let asking : Progress := { p with asked := p.asked ++ [⟨p.clock, s.node, .receive⟩] }
    have hawait : Client.await r asking = .done (.error e) { asking with clock := t } :=
      Client.await_of_ending hend hreach
    rw [receive_cons_apply hs, Client.bind_of_error hawait]
    rfl
  | ended hs he =>
    rw [receive_nil_apply hs, he]
    rfl

/-- A receive is stopped if nothing comes in time and the client has not been stopped before. -/
theorem receive_stopped (hnow : p.Reaches p.clock)
    (h : ∀ t result, s.Brings p.lastTx p.clock t result → ¬p.Reaches t) :
    ∃ q, s.receive p = .stopped q := by
  cases hs : s.receiving with
  | nil =>
    rw [receive_nil_apply hs]
    cases he : s.ended with
    | none => exact ⟨_, rfl⟩
    | some e => exact absurd hnow (h _ _ (.ended hs he))
  | cons r rest =>
    obtain ⟨clock, hrun⟩ := Client.await_stopped (r := r)
      (p := { p with asked := p.asked ++ [⟨p.clock, s.node, .receive⟩] }) fun t result hend => by
        cases result with
        | ok message => exact h t _ (.message hs hend)
        | error e => exact h t _ (.failed hs hend)
    rw [receive_cons_apply hs]
    exact ⟨_, Client.bind_of_stopped hrun⟩

/-- The close of a stream, which begins at an instant, ends at another, failed or not. -/
theorem close_ends (s : Stream α) (p : Progress) :
    s.close.Ends p fun t result => s.closing.ending? p.clock = some (t, result) where
  done := by
    intro t result h hreach
    rw [Stream.close, Client.bind_of_ok (Client.note_apply _ _ _)]
    exact ⟨_, Client.await_of_ending h hreach, rfl⟩
  stopped := by
    intro h
    rw [Stream.close, Client.bind_of_ok (Client.note_apply _ _ _)]
    obtain ⟨clock, hrun⟩ := Client.await_stopped
      (p := { p with asked := p.asked ++ [⟨p.clock, s.node, .close⟩] }) h
    exact ⟨_, hrun⟩

/-! ### What is asked -/

theorem send_asked (s : Stream α) (envelope : Envelope) (p : Progress) :
    (s.send envelope p).progress.asked = p.asked ++ [⟨p.clock, s.node, .send envelope⟩] := by
  rw [Stream.send, Client.bind_of_ok (Client.note_apply _ _ _)]
  exact Client.await_asked _ _

theorem receive_asked (s : Stream α) (p : Progress) :
    (s.receive p).progress.asked = p.asked ++ [⟨p.clock, s.node, .receive⟩] := by
  cases hs : s.receiving with
  | nil =>
    rw [receive_nil_apply hs]
    cases s.ended <;> rfl
  | cons reply rest =>
    rw [receive_cons_apply hs, Client.bind_asked_eq _ fun _ _ => rfl]
    exact Client.await_asked _ _

theorem close_asked (s : Stream α) (p : Progress) :
    (s.close p).progress.asked = p.asked ++ [⟨p.clock, s.node, .close⟩] := by
  rw [Stream.close, Client.bind_of_ok (Client.note_apply _ _ _)]
  exact Client.await_asked _ _

end Streams

end LedgerClient
