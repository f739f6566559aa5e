import LedgerClient.Proofs.Endorsing
/-!
# Peers one after the other

* `Reply.resultWithin`: what comes of a call under a deadline.  `within_await`, `endorseOne_apply`:
  a call under a deadline is a call that is given up after a while.
* `inTurn`: gives a proposal to one peer after the other and makes something of what comes of it.
  `heardInTurn`: what comes of it, for each peer from its own reply.
* `inTurn_done`, `exists_inTurn`: every peer is asked, whatever became of the others, and the values
  are those of what was heard, peer by peer.
-/

namespace LedgerClient

variable {α β : Type} {p q : Progress} {milliseconds : Nat} {expired : ClientError}

/-! ## Calls that are given up -/

namespace Reply

variable {r : Reply α}

/-- The call ends by itself within so many milliseconds. -/
def EndsWithin (r : Reply α) (milliseconds : Nat) : Prop :=
  r.outcome ≠ .silent ∧ r.delay ≤ milliseconds

theorem within_of_ends (h : r.EndsWithin milliseconds) :
    r.within milliseconds expired = r := by
  obtain ⟨hends, hle⟩ := h
  rw [within]
  split
  · rename_i hsilent
    exact absurd hsilent hends
  · exact if_neg (Nat.not_lt.2 hle)

theorem within_of_not_ends (h : ¬r.EndsWithin milliseconds) :
    r.within milliseconds expired = { delay := milliseconds, outcome := .failed expired } := by
  rw [within]
  split
  · rfl
  · rename_i hends
    exact if_pos (Nat.lt_of_not_le fun hle => h ⟨hends, hle⟩)

theorem within_answered_iff {a : α} :
    (r.within milliseconds expired).outcome = .answered a ↔
      r.outcome = .answered a ∧ r.delay ≤ milliseconds := by
  by_cases h : r.EndsWithin milliseconds
  · rw [within_of_ends h]
    exact ⟨fun ho => ⟨ho, h.2⟩, And.left⟩
  · rw [within_of_not_ends h]
    constructor
    · intro ho
      cases ho
    · rintro ⟨ho, hle⟩
      exact absurd ⟨by rw [ho]; exact nofun, hle⟩ h

/-- What comes of a call that is given up after so many milliseconds. -/
def resultWithin (r : Reply α) (milliseconds : Nat) (expired : ClientError) :
    Except ClientError α :=
  match (r.within milliseconds expired).outcome with
  | .answered a => .ok a
  | .failed e => .error e
  | .silent => .error expired

theorem within_outcome_ne_silent (r : Reply α) (milliseconds : Nat) (expired : ClientError) :
    (r.within milliseconds expired).outcome ≠ .silent := by
  by_cases h : r.EndsWithin milliseconds
  · rw [within_of_ends h]
    exact h.1
  · rw [within_of_not_ends h]
    exact nofun

/-- An answer comes of the call exactly if the call ends with that answer in time. -/
theorem resultWithin_eq_ok {a : α} :
    r.resultWithin milliseconds expired = .ok a ↔
      r.outcome = .answered a ∧ r.delay ≤ milliseconds := by
  rw [← show (r.within milliseconds expired).outcome = .answered a ↔ _ from within_answered_iff,
    resultWithin]
  cases (r.within milliseconds expired).outcome <;> simp

end Reply

namespace Client

/-- A call under a deadline is a call that is given up. -/
theorem within_await (milliseconds : Nat) (expired : ClientError) (r : Reply α) (p : Progress) :
    within milliseconds expired (await r) p = await (r.within milliseconds expired) p := by
  let deadline := p.clock + milliseconds
  let inner : Progress := { p with limit := some (p.before deadline) }
  have hinner : ∀ instant, inner.Reaches instant ↔ instant ≤ p.before deadline := fun _ =>
    Progress.reaches_within.trans Progress.le_before_iff.symm
  -- What is stopped inside has got as far as the deadline or the limit outside.
  have hstopped : ¬inner.Reaches (inner.clock + r.delay) ∨ r.outcome = .silent →
      await r inner = .stopped { inner with clock := p.before deadline } := by
    intro h
    by_cases hreach : inner.Reaches (inner.clock + r.delay)
    · rw [await_of_reaches hreach, h.resolve_left (not_not.2 hreach)]
      rfl
    · rw [await_of_not_reaches hreach]
      have hlt := Nat.lt_of_not_le (mt (hinner _).2 hreach)
      rw [show inner.before (inner.clock + r.delay) = p.before deadline from
        Nat.min_eq_left hlt.le]
  rw [within_apply]
  by_cases hends : r.EndsWithin milliseconds
  · rw [Reply.within_of_ends hends]
    have hle : p.clock + r.delay ≤ deadline := Nat.add_le_add_left hends.2 _
    by_cases hreach : p.Reaches (p.clock + r.delay)
    · have hreach' : inner.Reaches (inner.clock + r.delay) :=
        (hinner _).2 (Progress.le_before_iff.2 ⟨hle, hreach⟩)
      rw [await_of_reaches hreach', await_of_reaches hreach]
      cases ho : r.outcome with
      | answered a => rfl
      | failed e => rfl
      | silent => exact absurd ho hends.1
    · have hnot : ¬inner.Reaches (inner.clock + r.delay) := fun h =>
        hreach (Progress.le_before_iff.1 ((hinner _).1 h)).2
      rw [hstopped (.inl hnot), await_of_not_reaches hreach]
      dsimp only
      rw [if_neg fun h => hreach (h.mono hle), Progress.before_of_not_reaches hreach hle]
  · rw [Reply.within_of_not_ends hends]
    have hlate : ¬inner.Reaches (inner.clock + r.delay) ∨ r.outcome = .silent := by
      by_cases hsilent : r.outcome = .silent
      · exact .inr hsilent
      · refine .inl fun h => hends ⟨hsilent, ?_⟩
        have hle := ((hinner _).1 h).trans (p.before_le deadline)
        exact Nat.le_of_add_le_add_left hle
    rw [hstopped hlate]
    by_cases hreach : p.Reaches (p.clock + milliseconds)
    · rw [await_of_reaches hreach]
      exact if_pos hreach
    · rw [await_of_not_reaches hreach]
      exact if_neg hreach

theorem await_within_of_reaches {r : Reply α}
    (h : p.Reaches (p.clock + (r.within milliseconds expired).delay)) :
    await (r.within milliseconds expired) p = .done (r.resultWithin milliseconds expired)
      { p with clock := p.clock + (r.within milliseconds expired).delay } := by
  rw [await_of_reaches h, Reply.resultWithin]
  cases ho : (r.within milliseconds expired).outcome with
  | answered a => rfl
  | failed e => rfl
  | silent => exact absurd ho (r.within_outcome_ne_silent milliseconds expired)

end Client

/-! ## One peer -/

section InTurn

variable {proposal : SignedProposal} {peer : Endorser} {peers : List Endorser}

/-- The reply of a peer to the next proposal, given up after so many milliseconds. -/
def Endorser.nextWithin (peer : Endorser) (milliseconds : Nat) (p : Progress) :
    Reply ProposalResponse :=
  (peer.reply (p.calls peer.id .endorser)).within milliseconds (endorsementExpired milliseconds)

/-- The progress when a peer has been asked and its reply has come or been given up. -/
def Endorser.heardAt (peer : Endorser) (proposal : SignedProposal) (milliseconds : Nat)
    (p : Progress) : Progress :=
  { peer.askedAt proposal p with clock := p.clock + (peer.nextWithin milliseconds p).delay }

theorem endorseOne_apply (proposal : SignedProposal) (peer : Endorser) (milliseconds : Nat)
    (p : Progress) :
    endorseOne proposal peer milliseconds p =
      Client.await (peer.nextWithin milliseconds p) (peer.askedAt proposal p) := by
  rw [endorseOne, Endorser.nextWithin, ← Client.within_await]
  rfl

/-- What comes of the next proposal to a peer, from its reply alone. -/
def Endorser.heard (peer : Endorser) (milliseconds : Nat) (p : Progress) :
    Except ClientError ProposalResponse :=
  (peer.reply (p.calls peer.id .endorser)).resultWithin milliseconds
    (endorsementExpired milliseconds)

theorem endorseOne_of_reaches
    (h : p.Reaches (p.clock + (peer.nextWithin milliseconds p).delay)) :
    endorseOne proposal peer milliseconds p =
      .done (peer.heard milliseconds p) (peer.heardAt proposal milliseconds p) := by
  rw [endorseOne_apply]
  exact Client.await_within_of_reaches (p := peer.askedAt proposal p) h

theorem endorseOne_done {result : Except ClientError ProposalResponse}
    (h : endorseOne proposal peer milliseconds p = .done result q) :
    result = peer.heard milliseconds p ∧ q = peer.heardAt proposal milliseconds p := by
  by_cases hreach : p.Reaches (p.clock + (peer.nextWithin milliseconds p).delay)
  · rw [endorseOne_of_reaches hreach] at h
    cases h
    exact ⟨rfl, rfl⟩
  · have hnot : ¬(peer.askedAt proposal p).Reaches
        ((peer.askedAt proposal p).clock + (peer.nextWithin milliseconds p).delay) := hreach
    rw [endorseOne_apply, Client.await_of_not_reaches hnot] at h
    cases h

/-! ## All peers -/

/-- Gives a proposal to one peer after the other, and makes something of what comes of each. -/
def inTurn (proposal : SignedProposal) (milliseconds : Nat)
    (f : String → Except ClientError ProposalResponse → β) (peers : List Endorser) :
    Client (List β) :=
  peers.mapM fun peer => do
    let answer ← Client.attempt (endorseOne proposal peer milliseconds)
    return f peer.id.address answer

/-- What comes of the next proposal to the peers, for each of them from its own reply. -/
def heardInTurn (peers : List Endorser) (milliseconds : Nat) (p : Progress) :
    List (Endorser × Except ClientError ProposalResponse) :=
  (numbered peers p).map fun m =>
    (m.1, (m.1.reply m.2).resultWithin milliseconds (endorsementExpired milliseconds))

theorem forall_mem_heardInTurn {heard : Except ClientError ProposalResponse → Prop}
    (h : ∀ peer ∈ peers, ∀ number, heard ((peer.reply number).resultWithin milliseconds
      (endorsementExpired milliseconds))) :
    ∀ m ∈ heardInTurn peers milliseconds p, heard m.2 := by
  rw [heardInTurn, List.forall_mem_map]
  intro m hm
  have hpeer : m.1 ∈ (numbered peers p).map (·.1) := List.mem_map_of_mem hm
  rw [map_fst_numbered] at hpeer
  exact h m.1 hpeer m.2

theorem heardInTurn_cons (proposal : SignedProposal) (peer : Endorser) (peers : List Endorser)
    (milliseconds : Nat) (p : Progress) :
    heardInTurn (peer :: peers) milliseconds p = (peer, peer.heard milliseconds p) ::
      heardInTurn peers milliseconds (peer.heardAt proposal milliseconds p) := rfl

theorem inTurn_cons (proposal : SignedProposal) (milliseconds : Nat)
    (f : String → Except ClientError ProposalResponse → β) (peer : Endorser)
    (peers : List Endorser) :
    inTurn proposal milliseconds f (peer :: peers) =
      Client.attempt (endorseOne proposal peer milliseconds) >>= fun answer =>
        inTurn proposal milliseconds f peers >>= fun rest =>
          pure (f peer.id.address answer :: rest) := by
  rw [inTurn, List.mapM_cons, Client.bind_assoc]
  rfl

/-- Every peer is given the proposal in turn, whatever came of the others, and the values are made
of what was heard of the peers. -/
theorem inTurn_done {f : String → Except ClientError ProposalResponse → β}
    {result : Except ClientError (List β)}
    (h : inTurn proposal milliseconds f peers p = .done result q) :
    result = .ok ((heardInTurn peers milliseconds p).map fun m => f m.1.id.address m.2) ∧
      ∃ turns, q.asked = p.asked ++ turns ∧
        turns.map (fun a => (a.node, a.call)) = peers.map fun e => (e.id, .proposal proposal) := by
  induction peers generalizing p q result with
  | nil =>
    cases h
    exact ⟨rfl, [], (List.append_nil _).symm, rfl⟩
  | cons peer peers ih =>
    rw [inTurn_cons] at h
    obtain ⟨answer, p₁, hone, hrest⟩ := Client.attempt_bind_done.1 h
    obtain ⟨rfl, rfl⟩ := endorseOne_done hone
    rw [Client.bind_pure_apply] at hrest
    cases hrun : inTurn proposal milliseconds f peers (peer.heardAt proposal milliseconds p) with
    | stopped q' =>
      rw [hrun] at hrest
      cases hrest
    | done result' q' =>
      obtain ⟨rfl, turns, hasked, hturns⟩ := ih hrun
      rw [hrun] at hrest
      cases hrest
      refine ⟨?_, ⟨p.clock, peer.id, .proposal proposal⟩ :: turns, ?_, ?_⟩
      · rw [heardInTurn_cons proposal, List.map_cons]
        rfl
      · rw [hasked]
        exact List.append_assoc _ _ _
      · rw [List.map_cons, List.map_cons, hturns]

/-- Where nothing outside stops the client, all peers are heard. -/
theorem exists_inTurn {f : String → Except ClientError ProposalResponse → β}
    (hlimit : p.limit = none) :
    ∃ q, inTurn proposal milliseconds f peers p =
      .done (.ok ((heardInTurn peers milliseconds p).map fun m => f m.1.id.address m.2)) q := by
  induction peers generalizing p with
  | nil => exact ⟨p, rfl⟩
  | cons peer peers ih =>
    have hone : endorseOne proposal peer milliseconds p =
        .done (peer.heard milliseconds p) (peer.heardAt proposal milliseconds p) :=
      endorseOne_of_reaches (Progress.reaches_of_limit_none hlimit _)
    obtain ⟨q, hrun⟩ := ih (p := peer.heardAt proposal milliseconds p) hlimit
    refine ⟨q, ?_⟩
    rw [inTurn_cons, Client.attempt_bind_done]
    refine ⟨_, _, hone, ?_⟩
    rw [Client.bind_pure_apply, hrun, heardInTurn_cons proposal, List.map_cons]
    rfl

end InTurn

end LedgerClient
