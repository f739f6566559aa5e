import LedgerClient.Client.DeliverGroup
import LedgerClient.Proofs.Group.FirstFailure
/-!
# Waiting for a transaction

When and how a stream of filtered blocks reports a transaction.

* `Says`: what one message says about a transaction.  `Reads`: reading goes past
  blocks without the transaction and ends with the first message that says something,
  or where the stream breaks.  `readTask_ending_iff`: the task of a stream ends as
  reading does, once the stream is closed.
* `wait_firstFailureWins`, `wait_confirmed`: what `wait` gives and counts.
* `awaitCommit_failure`: every failure of `wait` is what a stream reports or the
  expiry of the deadline.
* `awaitCommit_asksOnly`: waiting receives messages and closes streams.
-/

namespace LedgerClient

/-- How reading a stream ends. -/
inductive Verdict where
  | valid
  /-- A message rules the transaction out. -/
  | refuted (error : ClientError)
  /-- The stream itself fails. -/
  | broken (error : ClientError)

def Verdict.result : Verdict → Except ClientError Unit
  | valid => .ok ()
  | refuted e => .error e
  | broken e => .error e

/-- What a message of a peer says about a transaction.  Of several entries of a block with its id
the first one counts. -/
inductive Says (txId address : String) : DeliverResponse → Verdict → Prop
  | valid {block : FilteredBlock} {tx : FilteredTransaction} :
      block.filteredTransactions.find? (fun tx => tx.txId = txId) = some tx →
      tx.validationCode = .valid → Says txId address (.filteredBlock block) .valid
  | invalidated {block : FilteredBlock} {tx : FilteredTransaction} :
      block.filteredTransactions.find? (fun tx => tx.txId = txId) = some tx →
      tx.validationCode ≠ .valid → Says txId address (.filteredBlock block)
        (.refuted (.txInvalidated txId address tx.validationCode))
  | completed (status : Status) :
      Says txId address (.status status) (.refuted (.deliverCompleted txId address status))
  | fullBlock (block : Block) : Says txId address (.block block)
      (.refuted (.unexpectedDeliverResponse address
        s!"full block {block.header.number.toNat} on a filtered stream"))

/-- A filtered block without the transaction. -/
def Silent (txId : String) (message : DeliverResponse) : Prop :=
  ∃ block, message = .filteredBlock block ∧ ∀ tx ∈ block.filteredTransactions, tx.txId ≠ txId

/-- Reading messages from an instant on ends at an instant with a verdict; `ended` is the failure
of the receives after the last message. -/
inductive Reads (txId address lastTx : String) (ended : Option ClientError) :
    Nat → List (Reply (String → DeliverResponse)) → Nat → Verdict → Prop
  | skipped {start t : Nat} {r : Reply (String → DeliverResponse)}
      {rest : List (Reply (String → DeliverResponse))} {message : String → DeliverResponse}
      {v : Verdict} : r.outcome = .answered message → Silent txId (message lastTx) →
      Reads txId address lastTx ended (start + r.delay) rest t v →
      Reads txId address lastTx ended start (r :: rest) t v
  | decided {start : Nat} {r : Reply (String → DeliverResponse)}
      {rest : List (Reply (String → DeliverResponse))} {message : String → DeliverResponse}
      {v : Verdict} : r.outcome = .answered message → Says txId address (message lastTx) v →
      Reads txId address lastTx ended start (r :: rest) (start + r.delay) v
  | failed {start : Nat} {r : Reply (String → DeliverResponse)}
      {rest : List (Reply (String → DeliverResponse))} {e : ClientError} :
      r.outcome = .failed e →
      Reads txId address lastTx ended start (r :: rest) (start + r.delay) (.broken e)
  | ended {start : Nat} {e : ClientError} : ended = some e →
      Reads txId address lastTx ended start [] start (.broken e)

/-! ## One message -/

theorem verdictOn_eq_none_iff {txId address : String} {message : DeliverResponse} :
    verdictOn txId address message = none ↔ Silent txId message := by
  cases message with
  | status status => exact ⟨fun h => (nomatch h), fun ⟨_, h, _⟩ => (nomatch h)⟩
  | block block => exact ⟨fun h => (nomatch h), fun ⟨_, h, _⟩ => (nomatch h)⟩
  | filteredBlock block =>
    rw [verdictOn, Option.map_eq_none_iff, List.find?_eq_none, Silent]
    simp only [decide_eq_true_eq, DeliverResponse.filteredBlock.injEq, exists_eq_left']

theorem verdictOn_eq_some_iff {txId address : String} {message : DeliverResponse}
    {result : Except ClientError Unit} :
    verdictOn txId address message = some result ↔
      ∃ v, Says txId address message v ∧ v.result = result := by
  constructor
  · intro h
    cases message with
    | status status =>
      cases h
      exact ⟨_, .completed status, rfl⟩
    | block block =>
      cases h
      exact ⟨_, .fullBlock block, rfl⟩
    | filteredBlock block =>
      rw [verdictOn, Option.map_eq_some_iff] at h
      obtain ⟨tx, hfind, rfl⟩ := h
      by_cases hv : tx.validationCode = .valid
      · exact ⟨_, .valid hfind hv, by rw [if_pos hv]; rfl⟩
      · exact ⟨_, .invalidated hfind hv, by rw [if_neg hv]; rfl⟩
  · rintro ⟨v, hs, rfl⟩
    cases hs with
    | valid hfind hv =>
      rw [verdictOn, hfind, Option.map_some, if_pos hv]
      rfl
    | invalidated hfind hv =>
      rw [verdictOn, hfind, Option.map_some, if_neg hv]
      rfl
    | completed status => rfl
    | fullBlock block => rfl

/-! ## One stream -/

namespace Stream

/-- The close of a stream that is begun at an instant ends at an instant, failed or not. -/
def Closes (s : Stream DeliverResponse) (begun t : Nat) : Prop :=
  ∃ r, s.closing.ending? begun = some (t, r)

/-- The stream has reported a verdict and is closed. -/
def Reports (s : Stream DeliverResponse) (txId lastTx : String) (start t : Nat) (v : Verdict) :
    Prop :=
  ∃ read, Reads txId s.node.address lastTx s.ended start s.receiving read v ∧ s.Closes read t

theorem closes_le {s : Stream DeliverResponse} {begun t : Nat} (h : s.Closes begun t) :
    begun ≤ t := by
  obtain ⟨r, h⟩ := h
  rw [(Reply.ending?_eq_some.1 h).1]
  exact Nat.le_add_right _ _

end Stream

theorem closeTask_ending_iff {s : Stream DeliverResponse} {begun t : Nat}
    {result r : Except ClientError Unit} :
    (closeTask s.node s.closing begun result).ending = some (t, r) ↔
      r = result ∧ s.Closes begun t := by
  rw [closeTask, Option.map_eq_some_iff, Stream.Closes]
  constructor
  · rintro ⟨⟨t', c⟩, h, heq⟩
    cases heq
    exact ⟨rfl, c, h⟩
  · rintro ⟨rfl, c, h⟩
    exact ⟨(t, c), h, rfl⟩

theorem readTask_nil_ending (txId lastTx : String) (s : Stream DeliverResponse) (start : Nat) :
    (readTask txId lastTx s start []).ending = match s.ended with
      | none => none
      | some e => (closeTask s.node s.closing start (.error e)).ending := by
  rw [readTask]
  cases s.ended <;> rfl

theorem readTask_cons_ending (txId lastTx : String) (s : Stream DeliverResponse) (start : Nat)
    (r : Reply (String → DeliverResponse)) (rest : List (Reply (String → DeliverResponse))) :
    (readTask txId lastTx s start (r :: rest)).ending = match r.outcome with
      | .silent => none
      | .failed e => (closeTask s.node s.closing (start + r.delay) (.error e)).ending
      | .answered message =>
        match verdictOn txId s.node.address (message lastTx) with
        | some result => (closeTask s.node s.closing (start + r.delay) result).ending
        | none => (readTask txId lastTx s (start + r.delay) rest).ending := by
  rw [readTask, Reply.ending?]
  cases r.outcome with
  | answered message =>
    dsimp only
    cases verdictOn txId s.node.address (message lastTx) <;> rfl
  | failed e => rfl
  | silent => rfl

/-- The task of a stream ends as reading does, once the stream is closed. -/
theorem readTask_ending_iff {txId lastTx : String} {s : Stream DeliverResponse} {start t : Nat}
    {rest : List (Reply (String → DeliverResponse))} {result : Except ClientError Unit} :
    (readTask txId lastTx s start rest).ending = some (t, result) ↔
      ∃ read v, Reads txId s.node.address lastTx s.ended start rest read v ∧ v.result = result ∧
        s.Closes read t := by
  induction rest generalizing start with
  | nil =>
    rw [readTask_nil_ending]
    constructor
    · intro h
      cases he : s.ended with
      | none =>
        rw [he] at h
        cases h
      | some e =>
        rw [he] at h
        obtain ⟨rfl, hc⟩ := closeTask_ending_iff.1 h
        exact ⟨start, .broken e, .ended rfl, rfl, hc⟩
    · rintro ⟨read, v, hr, rfl, hc⟩
      cases hr with
      | ended he =>
        rw [he]
        exact closeTask_ending_iff.2 ⟨rfl, hc⟩
  | cons r rest ih =>
    rw [readTask_cons_ending]
    constructor
    · intro h
      cases ho : r.outcome with
      | silent =>
        rw [ho] at h
        cases h
      | failed e =>
        rw [ho] at h
        obtain ⟨rfl, hc⟩ := closeTask_ending_iff.1 h
        exact ⟨_, .broken e, .failed ho, rfl, hc⟩
      | answered message =>
        rw [ho] at h
        dsimp only at h
        cases hv : verdictOn txId s.node.address (message lastTx) with
        | none =>
          rw [hv] at h
          obtain ⟨read, v, hr, hres, hc⟩ := ih.1 h
          exact ⟨read, v, .skipped ho (verdictOn_eq_none_iff.1 hv) hr, hres, hc⟩
        | some result' =>
          rw [hv] at h
          obtain ⟨rfl, hc⟩ := closeTask_ending_iff.1 h
          obtain ⟨v, hsays, hres⟩ := verdictOn_eq_some_iff.1 hv
          exact ⟨_, v, .decided ho hsays, hres, hc⟩
    · rintro ⟨read, v, hr, rfl, hc⟩
      cases hr with
      | skipped ho hsilent hr =>
        rw [ho]
        dsimp only
        rw [verdictOn_eq_none_iff.2 hsilent]
        exact ih.2 ⟨read, v, hr, rfl, hc⟩
      | decided ho hsays =>
        rw [ho]
        dsimp only
        rw [verdictOn_eq_some_iff.2 ⟨v, hsays, rfl⟩]
        exact closeTask_ending_iff.2 ⟨rfl, hc⟩
      | failed ho =>
        rw [ho]
        exact closeTask_ending_iff.2 ⟨rfl, hc⟩

/-! ## The group -/

namespace DeliverGroup

variable {g : DeliverGroup} {p q : Progress} {milliseconds : Nat}

/-- How and when a stream of the group has been waited for. -/
def StreamEnds (g : DeliverGroup) (p : Progress) (s : Stream DeliverResponse) (t : Nat)
    (result : Except ClientError Unit) : Prop :=
  ∃ v, s.Reports g.txId p.lastTx p.clock t v ∧ v.result = result

theorem streamEnds_iff (s : Stream DeliverResponse) (t : Nat)
    (result : Except ClientError Unit) :
    g.StreamEnds p s t result ↔
      ∃ r', (confirmTask g.txId p.lastTx p.clock s).ending = some (t, r') ∧
        r'.map (fun _ => ()) = result := by
  have hunit : ∀ r' : Except ClientError Unit, r'.map (fun _ => ()) = r' := by
    intro r'
    cases r' <;> rfl
  simp only [hunit, exists_eq_right, confirmTask, readTask_ending_iff]
  constructor
  · rintro ⟨v, ⟨read, hr, hc⟩, hres⟩
    exact ⟨read, v, hr, hres, hc⟩
  · rintro ⟨read, v, hr, hres, hc⟩
    exact ⟨v, ⟨read, hr, hc⟩, hres⟩

theorem streamEnds_ok {s : Stream DeliverResponse} {t : Nat} :
    g.StreamEnds p s t (.ok ()) ↔ s.Reports g.txId p.lastTx p.clock t .valid := by
  constructor
  · rintro ⟨v, hr, hv⟩
    cases v with
    | valid => exact hr
    | refuted e => cases hv
    | broken e => cases hv
  · intro h
    exact ⟨.valid, h, rfl⟩

theorem wait_run (g : DeliverGroup) (milliseconds : Nat) (p : Progress) :
    (g.wait milliseconds p).2 =
      (Client.awaitFan (g.waiting milliseconds p) p).map fun _ => () := rfl

/-- What `wait` gives: success when every stream has reported the transaction as valid in time, or
else the failure of a stream that failed earliest, or else the expiry. -/
theorem wait_firstFailureWins (g : DeliverGroup) {milliseconds : Nat} {p : Progress}
    (hreach : p.Reaches (p.clock + milliseconds)) :
    FirstFailureWins g.streams (g.StreamEnds p) (p.clock + milliseconds)
      (.deliverTimeout .wait g.txId milliseconds) (g.wait milliseconds p).2.result? := by
  rw [wait_run]
  have hgroup : (g.waiting milliseconds p).group = Task.race p.clock (p.clock + milliseconds)
      (g.streams.map (confirmTask g.txId p.lastTx p.clock)) :=
    congrArg (Task.race p.clock · _) hreach
  exact firstFailureWins_of_race (fun s _ => streamEnds_iff s) hgroup hreach

theorem wait_done_ok (h : (g.wait milliseconds p).2 = .done (.ok ()) q) :
    ∃ instant, (g.waiting milliseconds p).group.ending = some (instant, none) := by
  rw [wait_run] at h
  obtain ⟨_, hrun, -⟩ := Run.map_done_ok.1 h
  obtain ⟨instant, hend, -, -⟩ := Client.awaitFan_done_ok.1 hrun
  exact ⟨instant, hend⟩

theorem allReport_of_wait (h : (g.wait milliseconds p).2 = .done (.ok ()) q) :
    ∀ s ∈ g.streams, ∃ t < p.before (p.clock + milliseconds),
      s.Reports g.txId p.lastTx p.clock t .valid := by
  obtain ⟨instant, hend⟩ := wait_done_ok h
  have hall := (allSucceed_iff_ends fun s _ => streamEnds_iff s).1
    (Task.race_ending_success_iff.1 hend).1
  intro s hs
  obtain ⟨t, ht, he⟩ := hall s hs
  exact ⟨t, ht, streamEnds_ok.1 he⟩

/-- A wait that succeeds counts every stream. -/
theorem wait_confirmed (h : (g.wait milliseconds p).2 = .done (.ok ()) q) :
    (g.wait milliseconds p).1.confirmed = g.confirmed + g.streams.length := by
  obtain ⟨instant, hend⟩ := wait_done_ok h
  have hlength := Task.length_race_results hend
  rw [List.length_map] at hlength
  exact congrArg (g.confirmed + ·) hlength

/-- Every failure of `wait` is what a stream reports or the expiry of the deadline. -/
theorem awaitCommit_failure {e : ClientError}
    (h : g.awaitCommit milliseconds p = .done (.error e) q) :
    (∃ s ∈ g.streams, ∃ t, g.StreamEnds p s t (.error e)) ∨
      e = .deliverTimeout .wait g.txId milliseconds := by
  have hrun := Run.map_done_error.1 ((wait_run g milliseconds p).symm.trans h)
  rcases failure_of_race (fun s _ => streamEnds_iff s) rfl hrun with
    ⟨s, hs, t, -, hends⟩ | ⟨hexpired, -⟩
  · exact .inl ⟨s, hs, t, hends⟩
  · exact .inr hexpired

/-! ## What waiting asks -/

theorem readTask_asked (txId lastTx : String) (s : Stream DeliverResponse) (start : Nat)
    (rest : List (Reply (String → DeliverResponse))) :
    ∀ a ∈ (readTask txId lastTx s start rest).asked, a.call = .receive ∨ a.call = .close := by
  have hclose : ∀ begun result, ∀ a ∈ (closeTask s.node s.closing begun result).asked,
      a.call = .receive ∨ a.call = .close := by
    intro begun result a ha
    rw [List.mem_singleton.1 ha]
    exact .inr rfl
  induction rest generalizing start with
  | nil =>
    intro a ha
    rw [readTask] at ha
    rcases List.mem_cons.1 ha with rfl | ha
    · exact .inl rfl
    · split at ha
      · cases ha
      · exact hclose _ _ a ha
  | cons r rest ih =>
    intro a ha
    rw [readTask] at ha
    rcases List.mem_cons.1 ha with rfl | ha
    · exact .inl rfl
    · split at ha
      · cases ha
      · exact hclose _ _ a ha
      · split at ha
        · exact hclose _ _ a ha
        · exact ih _ a ha

/-- Waiting receives messages and closes streams. -/
theorem awaitCommit_asksOnly (g : DeliverGroup) (milliseconds : Nat) :
    Client.AsksOnly (fun _ c => c = .receive ∨ c = .close) (g.awaitCommit milliseconds) := by
  refine Client.asksOnly_of_awaitFan (g.waiting milliseconds) (fun p => ?_) fun p task hm => ?_
  · exact Run.progress_map _ _
  · obtain ⟨s, -, rfl⟩ := List.mem_map.1 hm
    exact readTask_asked _ _ _ _ _

end DeliverGroup

end LedgerClient
