import LedgerClient.Proofs.Handover
/-!
# Asking all endorsers at once

`collectEndorsements` waits for all endorsers, failed or not, and only then looks at what came.

* `Reply.EndsBefore`: which calls end in time.
* `collectEndorsements_of_all`: where all calls end in time, the replies are settled in the order in
  which they come.
* `collectEndorsements_of_missing`: where one does not, the deadline passes.
* `collectEndorsements_all_or_failure`: both together, and that no task waits to hand over a result.
-/

namespace LedgerClient

variable {α : Type}

/-! ## Calls that end in time -/

namespace Reply

/-- The call, which begins at an instant, ends before a deadline. -/
def EndsBefore (r : Reply α) (start deadline : Nat) : Prop :=
  r.result? ≠ none ∧ start + r.delay < deadline

instance (r : Reply α) (start deadline : Nat) : Decidable (r.EndsBefore start deadline) :=
  inferInstanceAs (Decidable (_ ∧ _))

theorem endsBefore_iff {r : Reply α} {start deadline : Nat} :
    r.EndsBefore start deadline ↔
      ∃ t result, r.ending? start = some (t, result) ∧ t < deadline := by
  rw [EndsBefore, ending?_eq_map]
  cases r.result? with
  | none => simp
  | some result => simp

theorem EndsBefore.exists_ending {r : Reply α} {start deadline : Nat}
    (h : r.EndsBefore start deadline) :
    ∃ result, r.ending? start = some (start + r.delay, result) := by
  obtain ⟨result, hresult⟩ := Option.ne_none_iff_exists'.1 h.1
  exact ⟨result, by rw [ending?_eq_map, hresult]; rfl⟩

/-- Endings bring the first failure of the replies, and their answers. -/
theorem firstFailure?_and_results {start : Nat} {endings : List (Nat × Except ClientError α)}
    {replies : List (Reply α)} (h : endings.map some = replies.map (·.ending? start)) :
    (Task.firstFailure? endings).map (·.2) = (replies.filterMap failure?).head? ∧
      Task.results endings = replies.filterMap answer? := by
  induction endings generalizing replies with
  | nil =>
    rw [List.map_eq_nil_iff.1 h.symm]
    exact ⟨rfl, rfl⟩
  | cons ending endings ih =>
    cases replies with
    | nil => cases h
    | cons r replies =>
      obtain ⟨hr, hrest⟩ := List.cons.inj h
      obtain ⟨hfailure, hresults⟩ := ih hrest
      obtain ⟨delay, outcome⟩ := r
      cases outcome with
      | answered a =>
        cases hr
        exact ⟨hfailure, congrArg (a :: ·) hresults⟩
      | failed e =>
        cases hr
        exact ⟨rfl, hresults⟩
      | silent => cases hr

theorem settle_eq {start : Nat} {endings : List (Nat × Except ClientError α)}
    {replies : List (Reply α)} (h : endings.map some = replies.map (·.ending? start)) :
    settle replies = match (Task.firstFailure? endings).map (·.2) with
      | some e => .error e
      | none => .ok (Task.results endings) := by
  obtain ⟨hfailure, hresults⟩ := firstFailure?_and_results h
  rw [settle, hfailure, hresults]
  cases replies.filterMap failure? <;> rfl

end Reply

namespace Task

variable {tasks : List (Task α)} {replies : List (Reply α)} {start deadline : Nat}

theorem map_some_filterMap_ending (htasks : tasks.map (·.ending) = replies.map (·.ending? start))
    (h : ∀ r ∈ replies, r.EndsBefore start deadline) :
    (tasks.filterMap (·.ending)).map some = replies.map (·.ending? start) := by
  induction tasks generalizing replies with
  | nil => exact htasks
  | cons task tasks ih =>
    cases replies with
    | nil => cases htasks
    | cons r replies =>
      obtain ⟨htask, htasks⟩ := List.cons.inj htasks
      obtain ⟨hr, hreplies⟩ := List.forall_mem_cons.1 h
      obtain ⟨result, hending⟩ := hr.exists_ending
      rw [List.filterMap_cons_some (htask.trans hending), List.map_cons, List.map_cons,
        ih htasks hreplies, hending]

/-- Where all calls end in time, the completions are the endings of the replies in order. -/
theorem map_some_completions (htasks : tasks.map (·.ending) = replies.map (·.ending? start))
    (h : ∀ r ∈ replies, r.EndsBefore start deadline) :
    (completions deadline tasks).map some = (Reply.inOrder replies).map (·.ending? start) := by
  have hmap := map_some_filterMap_ending htasks h
  have hall : (tasks.filterMap (·.ending)).filter (fun e => e.1 < deadline) =
      tasks.filterMap (·.ending) := by
    rw [List.filter_eq_self]
    intro e he
    have hmem : some e ∈ replies.map (·.ending? start) := hmap ▸ List.mem_map_of_mem he
    obtain ⟨r, hr, hending⟩ := List.mem_map.1 hmem
    obtain ⟨t, result, hending', ht⟩ := Reply.endsBefore_iff.1 (h r hr)
    rw [hending'] at hending
    cases hending
    exact decide_eq_true ht
  -- the instant of an ending, if there is one
  let instant : Option (Nat × Except ClientError α) → Nat := fun e => (e.map (·.1)).getD 0
  have hsome : sortByInstant instant ((tasks.filterMap (·.ending)).map some) =
      (sortByInstant (·.1) (tasks.filterMap (·.ending))).map some :=
    sortByInstant_map some _ fun _ _ _ _ => Iff.rfl
  rw [completions, hall, ← hsome, hmap]
  refine sortByInstant_map _ _ fun x hx y hy => ?_
  obtain ⟨result, hxe⟩ := (h x hx).exists_ending
  obtain ⟨result', hye⟩ := (h y hy).exists_ending
  rw [hxe, hye]
  exact (Nat.add_le_add_iff_left (n := start)).symm

/-- The tasks end in time if the calls do. -/
theorem endsBefore_iff_of_replies (htasks : tasks.map (·.ending) = replies.map (·.ending? start)) :
    (∀ task ∈ tasks, task.EndsBefore deadline) ↔ ∀ r ∈ replies, r.EndsBefore start deadline := by
  let inTime : Option (Nat × Except ClientError α) → Prop := fun ending =>
    ∃ t result, ending = some (t, result) ∧ t < deadline
  have htask : (∀ ending ∈ tasks.map (·.ending), inTime ending) ↔
      ∀ task ∈ tasks, task.EndsBefore deadline := List.forall_mem_map
  rw [← htask, htasks, List.forall_mem_map]
  exact forall₂_congr fun r _ => Reply.endsBefore_iff.symm

/-- The last completion is the ending of a call that takes longest. -/
theorem exists_lastInstant (hne : replies ≠ [])
    (htasks : tasks.map (·.ending) = replies.map (·.ending? start))
    (h : ∀ r ∈ replies, r.EndsBefore start deadline) :
    ∃ last ∈ replies, lastInstant start (completions deadline tasks) = start + last.delay ∧
      ∀ r ∈ replies, r.delay ≤ last.delay := by
  have hmem : ∀ ending, ending ∈ completions deadline tasks ↔
      ∃ r ∈ replies, r.ending? start = some ending := fun ending => by
    rw [← List.mem_map_of_injective (Option.some_injective _), map_some_completions htasks h,
      List.mem_map]
    exact exists_congr fun r => and_congr_left fun _ => mem_sortByInstant
  obtain ⟨hstart, hlast⟩ := le_lastInstant start (completions deadline tasks)
  have hle : ∀ r ∈ replies,
      start + r.delay ≤ lastInstant start (completions deadline tasks) := fun r hr => by
    obtain ⟨result, hending⟩ := (h r hr).exists_ending
    exact hlast _ ((hmem _).2 ⟨r, hr, hending⟩)
  rcases lastInstant_eq_or_mem start (completions deadline tasks) with heq | ⟨ending, hin, heq⟩
  · -- then no call takes any time
    obtain ⟨r, hr⟩ := List.exists_mem_of_ne_nil _ hne
    have hzero : ∀ r ∈ replies, r.delay = 0 := fun r hr => by
      have := hle r hr
      omega
    refine ⟨r, hr, by rw [heq, hzero r hr, Nat.add_zero], fun r' hr' => ?_⟩
    rw [hzero r' hr']
    exact Nat.zero_le _
  · obtain ⟨last, hr, hending⟩ := (hmem ending).1 hin
    obtain ⟨result, hending'⟩ := (h last hr).exists_ending
    rw [hending'] at hending
    cases hending
    refine ⟨last, hr, heq.symm, fun r' hr' => ?_⟩
    have := hle r' hr'
    omega

end Task

/-! ## Collecting -/

section Collecting

variable {proposal : SignedProposal} {endorsers : List Endorser} {milliseconds : Nat}
  {p : Progress}

theorem endings_of_endorsementTasks (proposal : SignedProposal) (endorsers : List Endorser)
    (p : Progress) :
    (endorsementTasks proposal endorsers p).map (·.ending) =
      (nextReplies endorsers p).map (·.ending? p.clock) := by
  rw [endorsementTasks_eq, nextReplies, List.map_map, List.map_map]
  rfl

/-- Tasks that have begun have given the proposal to every endorser once. -/
theorem askedBefore_endorsementTasks {horizon : Nat} (h : p.clock < horizon) :
    Task.askedBefore horizon (endorsementTasks proposal endorsers p) =
      endorsers.map fun e => ⟨p.clock, e.id, .proposal proposal⟩ := by
  have hflat : (endorsementTasks proposal endorsers p).flatMap (·.asked) =
      endorsers.map fun e => ⟨p.clock, e.id, .proposal proposal⟩ := by
    conv_rhs => rw [← map_fst_numbered endorsers p, List.map_map]
    rw [endorsementTasks_eq, List.flatMap_map]
    exact List.flatMap_pure_eq_map _ _
  have hinstant : ∀ a ∈ (endorsementTasks proposal endorsers p).flatMap (·.asked),
      a.instant = p.clock := fun a ha => by
    rw [hflat] at ha
    obtain ⟨e, -, rfl⟩ := List.mem_map.1 ha
    rfl
  rw [Task.askedBefore, List.filter_eq_self.2 fun a ha => decide_eq_true (hinstant a ha ▸ h),
    Task.sortByInstant_of_pairwise, hflat]
  exact List.pairwise_of_forall_mem_list fun a ha b hb => by rw [hinstant a ha, hinstant b hb]

/-- Where all calls end in time, the replies are settled in the order in which they come. -/
theorem collectEndorsements_of_all (hne : endorsers ≠ [])
    (h : ∀ r ∈ nextReplies endorsers p,
      r.EndsBefore p.clock (p.before (p.clock + milliseconds))) :
    ∃ q, collectEndorsements proposal endorsers milliseconds p =
        .done (Reply.settle (Reply.inOrder (nextReplies endorsers p))) q ∧
      q.asked = p.asked ++ endorsers.map (fun e => ⟨p.clock, e.id, .proposal proposal⟩) ∧
      ∃ last ∈ nextReplies endorsers p, q.clock = p.clock + last.delay ∧
        ∀ r ∈ nextReplies endorsers p, r.delay ≤ last.delay := by
  have htasks := endings_of_endorsementTasks proposal endorsers p
  have hreplies : nextReplies endorsers p ≠ [] := by
    rw [← List.length_pos_iff, length_nextReplies, List.length_pos_iff]
    exact hne
  obtain ⟨last, hlast, hinstant, hle⟩ := Task.exists_lastInstant hreplies htasks h
  have hgroup : (endorsing proposal endorsers milliseconds p).group =
      .reached (p.clock + last.delay)
        (Task.completions (p.before (p.clock + milliseconds))
          (endorsementTasks proposal endorsers p))
        ((Task.firstFailure? (Task.completions (p.before (p.clock + milliseconds))
          (endorsementTasks proposal endorsers p))).map (·.2)) := by
    rw [← hinstant]
    exact if_neg (Task.not_length_completions_lt_iff.2
      ((Task.endsBefore_iff_of_replies htasks).2 h))
  refine ⟨Client.fanned (endorsing proposal endorsers milliseconds p) p (p.clock + last.delay), ?_,
    ?_, last, hlast, rfl, hle⟩
  · refine (Client.awaitFan_apply _ p).trans ?_
    rw [Reply.settle_eq (Task.map_some_completions htasks h), hgroup]
    cases (Task.firstFailure? (Task.completions (p.before (p.clock + milliseconds))
      (endorsementTasks proposal endorsers p))).map (·.2) <;> rfl
  · rw [Client.fanned, hgroup]
    exact congrArg _ (askedBefore_endorsementTasks (Nat.lt_succ_of_le (Nat.le_add_right _ _)))

/-- Where a call does not end in time, the deadline passes, unless something outside stops the
client before. -/
theorem collectEndorsements_of_missing
    (h : ∃ r ∈ nextReplies endorsers p,
      ¬r.EndsBefore p.clock (p.before (p.clock + milliseconds))) :
    collectEndorsements proposal endorsers milliseconds p =
      if p.Reaches (p.clock + milliseconds) then
        .done (.error (endorsementExpired milliseconds))
          (Client.fanned (endorsing proposal endorsers milliseconds p) p (p.clock + milliseconds))
      else
        .stopped (Client.fanned (endorsing proposal endorsers milliseconds p) p
          (p.before (p.clock + milliseconds))) := by
  have hmissing : ∃ task ∈ endorsementTasks proposal endorsers p,
      ¬task.EndsBefore (p.before (p.clock + milliseconds)) := by
    by_contra hall
    simp only [not_exists, not_and, not_not] at hall
    obtain ⟨r, hr, hnot⟩ := h
    exact hnot ((Task.endsBefore_iff_of_replies (endings_of_endorsementTasks ..)).1 hall r hr)
  have hgroup : (endorsing proposal endorsers milliseconds p).group =
      .expired (p.before (p.clock + milliseconds))
        (Task.completions (p.before (p.clock + milliseconds))
          (endorsementTasks proposal endorsers p)) :=
    if_pos (Task.length_completions_lt_iff.2 hmissing)
  refine (Client.awaitFan_apply _ p).trans ?_
  rw [hgroup]
  rfl

/-- The client times out exactly where a call has not ended by the deadline. -/
theorem collectEndorsements_expired_iff (hne : endorsers ≠ []) :
    (∃ q, collectEndorsements proposal endorsers milliseconds p =
        .done (.error (endorsementExpired milliseconds)) q ∧ q.clock = p.clock + milliseconds) ↔
      p.Reaches (p.clock + milliseconds) ∧
        ∃ r ∈ nextReplies endorsers p, ¬r.EndsBefore p.clock (p.clock + milliseconds) := by
  by_cases hall : ∀ r ∈ nextReplies endorsers p,
      r.EndsBefore p.clock (p.before (p.clock + milliseconds))
  · obtain ⟨q, hrun, -, last, hlast, hclock, -⟩ := collectEndorsements_of_all hne hall
    constructor
    · -- the last call ends before the deadline
      rintro ⟨q', hrun', hexpired⟩
      rw [hrun] at hrun'
      obtain ⟨-, rfl⟩ := Run.done.inj hrun'
      have hlt := (hall last hlast).2
      have hle := p.before_le (p.clock + milliseconds)
      omega
    · rintro ⟨hreaches, r, hr, hnot⟩
      have hends := hall r hr
      rw [show p.before (p.clock + milliseconds) = p.clock + milliseconds from hreaches] at hends
      exact absurd hends hnot
  · simp only [not_forall, exists_prop] at hall
    rw [collectEndorsements_of_missing hall]
    constructor
    · rintro ⟨q, hrun, -⟩
      by_cases hreaches : p.Reaches (p.clock + milliseconds)
      · rw [show p.before (p.clock + milliseconds) = p.clock + milliseconds from hreaches] at hall
        exact ⟨hreaches, hall⟩
      · rw [if_neg hreaches] at hrun
        cases hrun
    · rintro ⟨hreaches, -⟩
      rw [if_pos hreaches]
      exact ⟨_, rfl, rfl⟩

end Collecting

/-- What the client has when the calls of all endorsers have ended, in some order: every endorser
has been given the proposal once, and the result is that of the replies.  It comes with the last of
them, and it is what the tasks bring about that hand over their results in this order. -/
structure Completed (proposal : SignedProposal) (endorsers : List Endorser) (p : Progress)
    (completed : List (Reply ProposalResponse))
    (result : Except ClientError (List ProposalResponse)) (q : Progress) : Prop where
  perm : completed.Perm (nextReplies endorsers p)
  sorted : completed.Pairwise fun r r' => r.delay ≤ r'.delay
  settles : Reply.Settles completed result
  asked : q.asked = p.asked ++ endorsers.map fun e => ⟨p.clock, e.id, .proposal proposal⟩
  exists_last : ∃ last ∈ completed, q.clock = p.clock + last.delay ∧
    ∀ r ∈ completed, r.delay ≤ last.delay
  exists_handover : ∃ handed s, Handover.Reached (nextReplies endorsers p) handed s ∧
    s.Finished ∧ handed.map (fun i => (nextReplies endorsers p)[i]) = completed
  collected_eq : ∀ handed s, Handover.Reached (nextReplies endorsers p) handed s →
    handed.map (fun i => (nextReplies endorsers p)[i]) = completed → s.collected = result

theorem exists_completed {proposal : SignedProposal} {endorsers : List Endorser}
    {milliseconds : Nat} {p : Progress} (hne : endorsers ≠ [])
    (hall : ∀ r ∈ nextReplies endorsers p,
      r.EndsBefore p.clock (p.before (p.clock + milliseconds))) :
    ∃ completed result q, collectEndorsements proposal endorsers milliseconds p = .done result q ∧
      Completed proposal endorsers p completed result q := by
  obtain ⟨q, hrun, hasked, last, hlast, hclock, hle⟩ := collectEndorsements_of_all hne hall
  have hcame : ∀ r ∈ nextReplies endorsers p, r.result? ≠ none := fun r hr => (hall r hr).1
  refine ⟨Reply.inOrder (nextReplies endorsers p), _, q, hrun, {
    perm := Task.sortByInstant_perm _ _
    sorted := Task.pairwise_sortByInstant _ _
    settles := Reply.settles_settle fun r hr => hcame r (Task.mem_sortByInstant.1 hr)
    asked := hasked
    exists_last := ⟨last, Task.mem_sortByInstant.2 hlast, hclock,
      fun r hr => hle r (Task.mem_sortByInstant.1 hr)⟩
    exists_handover := Handover.exists_inOrder hcame
    collected_eq := fun handed s h horder => ?_ }⟩
  rw [h.collected_eq, horder]

/-- Asking at least one endorser times out if and only if some call has not ended by the deadline,
whatever the others have done.  Where all calls end in time, the result is the failure that came
first, or else the answers of all endorsers in the order in which they came.

In the meantime the tasks hand over their results.  In any order of their steps no task waits for
room in a channel, so once the calls have ended all tasks finish; each of them has then handed over
its result once. -/
theorem collectEndorsements_all_or_failure (proposal : SignedProposal) {endorsers : List Endorser}
    (hne : endorsers ≠ []) (milliseconds : Nat) (p : Progress) :
    ((∃ q, collectEndorsements proposal endorsers milliseconds p =
        .done (.error (endorsementExpired milliseconds)) q ∧ q.clock = p.clock + milliseconds) ↔
      p.Reaches (p.clock + milliseconds) ∧
        ∃ r ∈ nextReplies endorsers p, ¬r.EndsBefore p.clock (p.clock + milliseconds)) ∧
    ((∀ r ∈ nextReplies endorsers p,
        r.EndsBefore p.clock (p.before (p.clock + milliseconds))) →
      ∃ completed result q,
        collectEndorsements proposal endorsers milliseconds p = .done result q ∧
        Completed proposal endorsers p completed result q) ∧
    ∀ handed s, Handover.Reached (nextReplies endorsers p) handed s →
      (∀ i result, s.phase i = .holding result → s.HasRoom result) ∧
      ((∀ i, s.phase i ≠ .calling) → ∃ later s',
        Handover.Reached (nextReplies endorsers p) (handed ++ later) s' ∧ s'.Finished) ∧
      (s.Finished → handed.Perm (List.finRange (nextReplies endorsers p).length) ∧
        Reply.Settles (handed.map fun i => (nextReplies endorsers p)[i]) s.collected) := by
  refine ⟨collectEndorsements_expired_iff hne, exists_completed hne, fun handed s h => ?_⟩
  exact ⟨fun i result hphase => h.hasRoom hphase, h.exists_finished,
    fun hfinished => ⟨h.perm hfinished, h.settles⟩⟩

/-! ### Three endorsers -/

/-- Before anything has been asked. -/
def unasked : Progress := { headers := { time := ⟨0, 0⟩, drawn := 0 } }

def threeEndorsers (first second third : Reply ProposalResponse) : List Endorser :=
  [⟨⟨.endorser, 0, "peer0:7051"⟩, fun _ => first⟩, ⟨⟨.endorser, 1, "peer1:7051"⟩, fun _ => second⟩,
    ⟨⟨.endorser, 2, "peer2:7051"⟩, fun _ => third⟩]

def slowReply : Reply ProposalResponse where
  delay := 7
  outcome := .answered ⟨1, ⟨200, "slow", []⟩, [7], none⟩

def quickReply : Reply ProposalResponse where
  delay := 2
  outcome := .answered ⟨1, ⟨200, "quick", []⟩, [7], none⟩

def failedReply (delay : Nat) : Reply ProposalResponse where
  delay := delay
  outcome := .failed (.transport "peer1:7051" "unavailable")

/-- The client waits for a silent endorser although another one has failed; without it the failure
comes with the slowest answer, as what the tasks have handed over. -/
theorem collectEndorsements_all_or_failure_threeEndorsers :
    (∃ q, collectEndorsements ⟨[1], [2]⟩
        (threeEndorsers slowReply (failedReply 3) { outcome := .silent }) 10 unasked =
          .done (.error (.timeout "endorsement" 10)) q ∧ q.clock = 10) ∧
    ∃ q, collectEndorsements ⟨[1], [2]⟩
        (threeEndorsers slowReply (failedReply 3) quickReply) 10 unasked =
          .done (.error (.transport "peer1:7051" "unavailable")) q ∧
      q.asked.length = 3 ∧
      ∃ handed s, Handover.Reached [slowReply, failedReply 3, quickReply] handed s ∧
        s.Finished ∧ s.collected = .error (.transport "peer1:7051" "unavailable") := by
  constructor
  · refine (collectEndorsements_all_or_failure ⟨[1], [2]⟩ (List.cons_ne_nil _ _) 10 unasked).1.2
      ⟨rfl, { outcome := .silent }, ?_, by decide⟩
    exact List.mem_cons_of_mem _ (List.mem_cons_of_mem _ List.mem_cons_self)
  · have hne : threeEndorsers slowReply (failedReply 3) quickReply ≠ [] := List.cons_ne_nil _ _
    obtain ⟨completed, result, q, hrun, h⟩ :=
      (collectEndorsements_all_or_failure ⟨[1], [2]⟩ hne 10 unasked).2.1 (by decide)
    have hfailure : (collectEndorsements ⟨[1], [2]⟩
        (threeEndorsers slowReply (failedReply 3) quickReply) 10 unasked).failure? =
          some (.transport "peer1:7051" "unavailable") := by
      decide +kernel
    obtain ⟨q', hrun'⟩ := Run.done_error_of_failure? hfailure
    obtain ⟨rfl, rfl⟩ := Run.done.inj (hrun.symm.trans hrun')
    obtain ⟨handed, s, hs, hfinished, horder⟩ := h.exists_handover
    refine ⟨q, hrun, ?_, handed, s, hs, hfinished, h.collected_eq handed s hs horder⟩
    rw [h.asked]
    rfl

end LedgerClient
