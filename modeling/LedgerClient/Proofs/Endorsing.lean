import LedgerClient.Client.Endorsement
import LedgerClient.Proofs.Runs
/-!
# Collecting endorsements

`Collected` says what the client has when it has asked peers to simulate a proposal:
every peer has answered in time, and the responses are the answers in some order.

* `collectEndorsements_collected`, `exists_collectEndorsements`: several peers at
  once.
* `endorseOne_collected`, `exists_endorseOne`: one peer.
* `collectEndorsements_asksOnly`, `endorseOne_asksOnly`: nothing but proposals is
  asked.
-/

namespace LedgerClient

namespace Reply

variable {α : Type}

/-- The answer that a call gets, if it gets one. -/
def answer? (r : Reply α) : Option α :=
  match r.outcome with
  | .answered a => some a
  | _ => none

theorem answer?_eq_some {r : Reply α} {a : α} : r.answer? = some a ↔ r.outcome = .answered a := by
  rw [answer?]
  cases r.outcome with
  | answered b => rw [Option.some.injEq, Outcome.answered.injEq]
  | failed e => exact ⟨fun h => (nomatch h), fun h => (nomatch h)⟩
  | silent => exact ⟨fun h => (nomatch h), fun h => (nomatch h)⟩

/-- A call that begins at an instant is answered at another. -/
def AnsweredAt (r : Reply α) (start t : Nat) : Prop :=
  t = start + r.delay ∧ ∃ a, r.outcome = .answered a

theorem answeredAt_iff {r : Reply α} {start t : Nat} :
    r.AnsweredAt start t ↔ ∃ a, r.ending? start = some (t, .ok a) := by
  simp only [ending?_eq_ok, exists_and_right]
  exact And.comm

theorem AnsweredAt.le {r : Reply α} {start t : Nat} (h : r.AnsweredAt start t) : start ≤ t := by
  rw [h.1]
  exact Nat.le_add_right _ _

end Reply

/-- The peers with the numbers of their next calls. -/
def numbered (peers : List Endorser) (p : Progress) : List (Endorser × Nat) :=
  peers.zip (numberCalls .endorser p.calls (peers.map (·.id))).1

/-- The replies of the peers to the next proposal. -/
def nextReplies (peers : List Endorser) (p : Progress) : List (Reply ProposalResponse) :=
  (numbered peers p).map fun (e, n) => e.reply n

theorem map_fst_numbered (peers : List Endorser) (p : Progress) :
    (numbered peers p).map (·.1) = peers := by
  refine List.map_fst_zip ?_
  rw [length_numberCalls, List.length_map]

theorem length_nextReplies (peers : List Endorser) (p : Progress) :
    (nextReplies peers p).length = peers.length := by
  rw [nextReplies, List.length_map, ← List.length_map (·.1), map_fst_numbered]

/-- The client has asked peers to simulate a proposal, and all have answered in time. -/
structure Collected (proposal : SignedProposal) (peers : List Endorser) (inTime : Nat → Prop)
    (p : Progress) (responses : List ProposalResponse) (q : Progress) : Prop where
  answered : Task.AllBy p.clock (nextReplies peers p)
    (fun r t => inTime t ∧ r.AnsweredAt p.clock t) q.clock
  perm : responses.Perm ((nextReplies peers p).filterMap Reply.answer?)
  asked : ∃ proposals, q.asked = p.asked ++ proposals ∧
    ∀ a, a ∈ proposals ↔ ∃ e ∈ peers, a = ⟨p.clock, e.id, .proposal proposal⟩
  headers : q.headers = p.headers
  keeps : p.Keeps .endorser q

namespace Collected

variable {proposal : SignedProposal} {peers : List Endorser} {inTime : Nat → Prop}
  {p q : Progress} {responses : List ProposalResponse}

/-- The responses are the answers of the peers. -/
theorem mem_iff (h : Collected proposal peers inTime p responses q) {a : ProposalResponse} :
    a ∈ responses ↔ ∃ r ∈ nextReplies peers p, r.outcome = .answered a := by
  rw [h.perm.mem_iff, List.mem_filterMap]
  exact exists_congr fun r => and_congr_right fun _ => Reply.answer?_eq_some

theorem length_eq (h : Collected proposal peers inTime p responses q) :
    responses.length = peers.length := by
  rw [h.perm.length_eq, List.length_filterMap_eq_countP, ← length_nextReplies peers p,
    List.countP_eq_length]
  intro r hr
  obtain ⟨t, -, -, -, a, ha⟩ := h.answered.all r hr
  rw [Reply.answer?_eq_some.2 ha]
  rfl

end Collected

section Several

variable {proposal : SignedProposal} {endorsers : List Endorser} {milliseconds : Nat}
  {p q : Progress} {responses : List ProposalResponse}

theorem endorsementTasks_eq (proposal : SignedProposal) (endorsers : List Endorser)
    (p : Progress) :
    endorsementTasks proposal endorsers p =
      (numbered endorsers p).map fun m =>
        endorsementTask p.clock proposal m.1.id (m.1.reply m.2) := rfl

/-- A gathering of endorsements succeeds when all peers answer before the deadline. -/
theorem endorsing_ending_iff {t : Nat} :
    (endorsing proposal endorsers milliseconds p).group.ending = some (t, none) ↔
      Task.AllBy p.clock (nextReplies endorsers p)
        (fun r t => t < p.before (p.clock + milliseconds) ∧ r.AnsweredAt p.clock t) t := by
  refine Task.gather_ending_success_iff.trans (Iff.trans ?_ Task.AllBy.map_iff.symm)
  rw [endorsementTasks_eq]
  refine Task.lastInstant_iff_allBy (fun m _ t => ?_) fun m _ t h => h.2.le
  exact and_congr_right fun _ => Reply.answeredAt_iff

theorem value?_endorsementTask (start : Nat) (proposal : SignedProposal) (node : NodeId)
    (reply : Reply ProposalResponse) :
    (endorsementTask start proposal node reply).value? = reply.answer? := by
  rw [Task.value?, endorsementTask, Reply.ending?, Reply.answer?]
  cases reply.outcome <;> rfl

theorem endorsing_results_perm {t : Nat}
    (h : (endorsing proposal endorsers milliseconds p).group.ending = some (t, none)) :
    (endorsing proposal endorsers milliseconds p).group.results.Perm
      ((nextReplies endorsers p).filterMap Reply.answer?) := by
  have hvalues : (endorsementTasks proposal endorsers p).filterMap Task.value? =
      (nextReplies endorsers p).filterMap Reply.answer? := by
    rw [endorsementTasks_eq, nextReplies, List.filterMap_map, List.filterMap_map]
    exact List.filterMap_congr fun m _ => value?_endorsementTask _ _ _ _
  rw [← hvalues]
  exact Task.gather_results_perm h

theorem mem_endorsementTasks_asked {a : Asked} :
    (∃ task ∈ endorsementTasks proposal endorsers p, a ∈ task.asked) ↔
      ∃ e ∈ endorsers, a = ⟨p.clock, e.id, .proposal proposal⟩ := by
  rw [endorsementTasks_eq]
  constructor
  · rintro ⟨_, hm, ha⟩
    obtain ⟨m, hmem, rfl⟩ := List.mem_map.1 hm
    have he : m.1 ∈ (numbered endorsers p).map (·.1) := List.mem_map_of_mem hmem
    rw [map_fst_numbered] at he
    exact ⟨m.1, he, List.mem_singleton.1 ha⟩
  · rintro ⟨e, he, rfl⟩
    rw [← map_fst_numbered endorsers p] at he
    obtain ⟨m, hmem, rfl⟩ := List.mem_map.1 he
    exact ⟨_, List.mem_map_of_mem hmem, List.mem_singleton.2 rfl⟩

theorem collectEndorsements_collected
    (h : collectEndorsements proposal endorsers milliseconds p = .done (.ok responses) q) :
    Collected proposal endorsers (· < p.before (p.clock + milliseconds)) p responses q := by
  obtain ⟨instant, hend, rfl, rfl⟩ := Client.awaitFan_done_ok.1 h
  have hall := endorsing_ending_iff.1 hend
  have hstart : p.clock ≤ instant := hall.start_le fun m _ t h => h.2.le
  have hhorizon : (endorsing proposal endorsers milliseconds p).group.horizon = instant + 1 :=
    Task.gather_horizon hend
  refine ⟨hall, endorsing_results_perm hend, ⟨_, rfl, fun a => ?_⟩, ?_, ?_⟩
  · rw [Task.mem_askedBefore, hhorizon]
    refine (and_iff_left_of_imp ?_).trans mem_endorsementTasks_asked
    intro ha
    obtain ⟨e, -, rfl⟩ := mem_endorsementTasks_asked.1 ha
    exact Nat.lt_succ_of_le hstart
  · rw [Client.fanned]
    split <;> rfl
  · rw [Client.fanned]
    split
    · exact ⟨rfl, fun node other ho => numberCalls_other ho _ _ _⟩
    · exact ⟨rfl, fun node other _ => rfl⟩

theorem exists_collectEndorsements {instant : Nat}
    (h : Task.AllBy p.clock (nextReplies endorsers p)
      (fun r t => t < p.before (p.clock + milliseconds) ∧ r.AnsweredAt p.clock t) instant) :
    ∃ responses q, collectEndorsements proposal endorsers milliseconds p =
      .done (.ok responses) q ∧ q.clock = instant :=
  ⟨_, _, Client.awaitFan_done_ok.2 ⟨instant, endorsing_ending_iff.2 h, rfl, rfl⟩, rfl⟩

theorem collectEndorsements_asksOnly (proposal : SignedProposal) (endorsers : List Endorser)
    (milliseconds : Nat) :
    Client.AsksOnly (fun _ c => c = .proposal proposal)
      (collectEndorsements proposal endorsers milliseconds) := by
  refine Client.asksOnly_of_awaitFan (endorsing proposal endorsers milliseconds) (fun _ => rfl)
    fun p task hm a ha => ?_
  obtain ⟨e, -, rfl⟩ := mem_endorsementTasks_asked.1 ⟨task, hm, ha⟩
  rfl

end Several

section One

variable {proposal : SignedProposal} {endorser : Endorser} {milliseconds : Nat} {p q : Progress}
  {answer : ProposalResponse}

/-- The progress when a peer has been sent a proposal. -/
def Endorser.askedAt (e : Endorser) (proposal : SignedProposal) (p : Progress) : Progress :=
  { p with
    calls := countCall p.calls e.id .endorser
    asked := p.asked ++ [⟨p.clock, e.id, .proposal proposal⟩] }

theorem process_apply (e : Endorser) (proposal : SignedProposal) (p : Progress) :
    e.process proposal p =
      Client.await (e.reply (p.calls e.id .endorser)) (e.askedAt proposal p) := rfl

theorem nextReplies_singleton (e : Endorser) (p : Progress) :
    nextReplies [e] p = [e.reply (p.calls e.id .endorser)] := rfl

/-- One peer may answer at the deadline itself. -/
theorem endorseOne_done_ok :
    endorseOne proposal endorser milliseconds p = .done (.ok answer) q ↔
      (endorser.reply (p.calls endorser.id .endorser)).outcome = .answered answer ∧
        p.clock + (endorser.reply (p.calls endorser.id .endorser)).delay ≤
          p.before (p.clock + milliseconds) ∧
        q = { endorser.askedAt proposal p with
          clock := p.clock + (endorser.reply (p.calls endorser.id .endorser)).delay } := by
  rw [endorseOne, Client.within_done_ok]
  constructor
  · rintro ⟨r, h, rfl⟩
    obtain ⟨ho, hreach, rfl⟩ := Client.await_done_ok.1 ((process_apply _ _ _).symm.trans h)
    exact ⟨ho, Progress.le_before_iff.2 (Progress.reaches_within.1 hreach), rfl⟩
  · rintro ⟨ho, hle, rfl⟩
    refine ⟨_, (process_apply _ _ _).trans (Client.await_done_ok.2 ⟨ho, ?_, rfl⟩), rfl⟩
    exact Progress.reaches_within.2 (Progress.le_before_iff.1 hle)

theorem endorseOne_collected
    (h : endorseOne proposal endorser milliseconds p = .done (.ok answer) q) :
    Collected proposal [endorser] (· ≤ p.before (p.clock + milliseconds)) p [answer] q := by
  obtain ⟨ho, hle, rfl⟩ := endorseOne_done_ok.1 h
  have hanswer : (endorser.reply (p.calls endorser.id .endorser)).answer? = some answer :=
    Reply.answer?_eq_some.2 ho
  refine ⟨⟨?_, .inr ?_⟩, ?_, ⟨_, rfl, fun a => ?_⟩, rfl, rfl, fun node other ho => ?_⟩
  · intro r hr
    rw [List.mem_singleton.1 hr]
    exact ⟨_, le_rfl, hle, rfl, answer, ho⟩
  · exact ⟨_, List.mem_singleton.2 rfl, hle, rfl, answer, ho⟩
  · rw [nextReplies_singleton, List.filterMap_cons, hanswer]
    exact .refl _
  · simp only [List.mem_singleton, exists_eq_left]
  · exact countCall_other ho _ _ _

theorem exists_endorseOne {instant : Nat}
    (h : Task.AllBy p.clock (nextReplies [endorser] p)
      (fun r t => t ≤ p.before (p.clock + milliseconds) ∧ r.AnsweredAt p.clock t) instant) :
    ∃ answer q, endorseOne proposal endorser milliseconds p = .done (.ok answer) q ∧
      q.clock = instant := by
  obtain ⟨t, ht, hle, rfl, answer, ho⟩ := h.all _ (List.mem_singleton.2 rfl)
  refine ⟨answer, _, endorseOne_done_ok.2 ⟨ho, hle, rfl⟩, Nat.le_antisymm ht ?_⟩
  rcases h.last with rfl | ⟨r, hr, -, hinstant, -⟩
  · exact Nat.le_add_right _ _
  · rw [hinstant, List.mem_singleton.1 hr]

theorem endorseOne_asksOnly (proposal : SignedProposal) (endorser : Endorser)
    (milliseconds : Nat) :
    Client.AsksOnly (fun _ c => c = .proposal proposal)
      (endorseOne proposal endorser milliseconds) :=
  .within (.bind (.number _ _) fun _ => .bind (.note rfl) fun _ => .await _)

end One

end LedgerClient
