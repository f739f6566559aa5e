import Mathlib.Data.Fintype.Card
import Mathlib.Data.List.FinRange
import LedgerClient.Network.Handover
import LedgerClient.Proofs.Endorsing
/-!
# Results handed over in any order

A `Handover` goes on by steps of its tasks in any order.

* `Handover.Sound`: each task has handed over its result at most once, and the channels have what
  was handed over.  `Reached.sound`: every step keeps this.
* `Reached.hasRoom`: no task waits for the coordinator.
* `Reached.exists_finished`: once no call is outstanding, all tasks finish.
* `Reached.collected_eq`: what the coordinator then makes of the channels.
* `exists_reached`, `exists_inOrder`: the results can be handed over in every order, and so in that
  in which the calls end.
-/

namespace LedgerClient

variable {α : Type}

/-! ## Replies that have come -/

namespace Reply

/-- The failure with which a call ends, if it ends with one. -/
def failure? (r : Reply α) : Option ClientError :=
  match r.outcome with
  | .failed e => some e
  | _ => none

theorem of_result?_ok {r : Reply α} {a : α} (h : r.result? = some (.ok a)) :
    r.answer? = some a ∧ r.failure? = none := by
  obtain ⟨delay, outcome⟩ := r
  cases outcome <;> cases h
  exact ⟨rfl, rfl⟩

theorem of_result?_error {r : Reply α} {e : ClientError} (h : r.result? = some (.error e)) :
    r.answer? = none ∧ r.failure? = some e := by
  obtain ⟨delay, outcome⟩ := r
  cases outcome <;> cases h
  exact ⟨rfl, rfl⟩

theorem ending?_eq_map (r : Reply α) (start : Nat) :
    r.ending? start = r.result?.map fun result => (start + r.delay, result) := by
  obtain ⟨delay, outcome⟩ := r
  cases outcome <;> rfl

/-- The replies in the order in which they come. -/
def inOrder (replies : List (Reply α)) : List (Reply α) := Task.sortByInstant (·.delay) replies

/-- Replies come to a result in the order in which they come: the answers of all of them, or the
first failure. -/
def Settles (replies : List (Reply α)) (result : Except ClientError (List α)) : Prop :=
  (∃ answers : List α, replies.map (·.outcome) = answers.map .answered ∧ result = .ok answers) ∨
    ∃ (answers : List α) (e : ClientError) (rest : List (Outcome α)),
      replies.map (·.outcome) = answers.map .answered ++ .failed e :: rest ∧ result = .error e

/-- The result of replies that have all come. -/
def settle (replies : List (Reply α)) : Except ClientError (List α) :=
  match replies.filterMap failure? with
  | e :: _ => .error e
  | [] => .ok (replies.filterMap answer?)

theorem settles_settle {replies : List (Reply α)} (h : ∀ r ∈ replies, r.result? ≠ none) :
    Settles replies (settle replies) := by
  induction replies with
  | nil => exact .inl ⟨[], rfl, rfl⟩
  | cons r rest ih =>
    obtain ⟨hr, hrest⟩ := List.forall_mem_cons.1 h
    cases ho : r.outcome with
    | silent =>
      rw [result?, ho] at hr
      exact absurd rfl hr
    | failed e =>
      refine .inr ⟨[], e, rest.map (·.outcome), by rw [List.map_cons, ho]; rfl, ?_⟩
      simp only [settle, failure?, ho, List.filterMap_cons]
    | answered a =>
      have hsettle : settle (r :: rest) = (settle rest).map (a :: ·) := by
        simp only [settle, failure?, answer?, ho, List.filterMap_cons]
        cases rest.filterMap failure? <;> rfl
      rw [hsettle]
      rcases ih hrest with ⟨answers, houtcomes, heq⟩ | ⟨answers, e, others, houtcomes, heq⟩
      · exact .inl ⟨a :: answers, by rw [List.map_cons, ho, houtcomes]; rfl, by rw [heq]; rfl⟩
      · exact .inr ⟨a :: answers, e, others, by rw [List.map_cons, ho, houtcomes]; rfl,
          by rw [heq]; rfl⟩

end Reply

namespace Handover

/-- What holds whatever the order of the steps: each task has handed over its result at most once,
and the channels have what was handed over. -/
structure Sound (replies : List (Reply α)) (handed : List (Fin replies.length))
    (s : Handover α replies.length) : Prop where
  nodup : handed.Nodup
  finished : ∀ i, s.phase i = .finished ↔ i ∈ handed
  holding : ∀ i result, s.phase i = .holding result → replies[i].result? = some result
  came : ∀ i ∈ handed, replies[i].result? ≠ none
  answers : s.answers =
    ⟨replies.length, handed.filterMap fun i => (replies[i] : Reply α).answer?⟩
  failures : s.failures =
    ⟨replies.length, handed.filterMap fun i => (replies[i] : Reply α).failure?⟩

variable {replies : List (Reply α)} {handed : List (Fin replies.length)}
  {s : Handover α replies.length}

/-! ## Every interleaving -/

theorem Sound.begun : Sound replies [] (begun α replies.length) where
  nodup := .nil
  finished := fun _ => ⟨fun h => (nomatch h), fun h => absurd h List.not_mem_nil⟩
  holding := fun _ _ h => nomatch h
  came := fun _ h => absurd h List.not_mem_nil
  answers := rfl
  failures := rfl

/-- A call that ends leaves the channels alone. -/
theorem Sound.callEnds {i : Fin replies.length} {result : Except ClientError α}
    (h : Sound replies handed s) (hphase : s.phase i = .calling)
    (hresult : replies[i].result? = some result) :
    Sound replies handed (s.moved i (.holding result)) where
  nodup := h.nodup
  finished := fun j => by
    by_cases hj : j = i
    · subst hj
      rw [moved_phase_self, ← h.finished, hphase]
      exact ⟨fun h => (nomatch h), fun h => (nomatch h)⟩
    · rw [moved_phase_of_ne hj, h.finished]
  holding := fun j result' hj => by
    by_cases hji : j = i
    · subst hji
      rw [moved_phase_self] at hj
      cases hj
      exact hresult
    · rw [moved_phase_of_ne hji] at hj
      exact h.holding j result' hj
  came := h.came
  answers := h.answers
  failures := h.failures

/-- What is sent for a task is at the end of its channel. -/
theorem Sound.send {i : Fin replies.length} {result : Except ClientError α}
    (h : Sound replies handed s) (hresult : replies[i].result? = some result) :
    (s.send result).answers = ⟨replies.length,
        (handed ++ [i]).filterMap fun i => (replies[i] : Reply α).answer?⟩ ∧
      (s.send result).failures = ⟨replies.length,
        (handed ++ [i]).filterMap fun i => (replies[i] : Reply α).failure?⟩ := by
  cases result with
  | ok a =>
    obtain ⟨hanswer, hfailure⟩ := Reply.of_result?_ok hresult
    simp only [Handover.send, Mailbox.send, h.answers, h.failures, List.filterMap_append,
      List.filterMap_cons, List.filterMap_nil, hanswer, hfailure, List.append_nil, and_self]
  | error e =>
    obtain ⟨hanswer, hfailure⟩ := Reply.of_result?_error hresult
    simp only [Handover.send, Mailbox.send, h.answers, h.failures, List.filterMap_append,
      List.filterMap_cons, List.filterMap_nil, hanswer, hfailure, List.append_nil, and_self]

theorem Sound.handsOver {i : Fin replies.length} {result : Except ClientError α}
    (h : Sound replies handed s) (hphase : s.phase i = .holding result) :
    Sound replies (handed ++ [i]) ((s.send result).moved i .finished) where
  nodup := by
    have hi : i ∉ handed := fun hi => by
      rw [(h.finished i).2 hi] at hphase
      cases hphase
    exact List.nodup_append.2 ⟨h.nodup, List.nodup_singleton i, fun a ha b hb => by
      rw [List.mem_singleton.1 hb]
      exact fun heq => hi (heq ▸ ha)⟩
  finished := fun j => by
    rw [List.mem_append, List.mem_singleton]
    by_cases hj : j = i
    · subst hj
      rw [moved_phase_self]
      exact ⟨fun _ => .inr rfl, fun _ => rfl⟩
    · rw [moved_phase_of_ne hj, send_phase, h.finished]
      exact ⟨.inl, fun h => h.resolve_right hj⟩
  holding := fun j result' hj => by
    by_cases hji : j = i
    · subst hji
      rw [moved_phase_self] at hj
      cases hj
    · rw [moved_phase_of_ne hji, send_phase] at hj
      exact h.holding j result' hj
  came := fun j hj => by
    rcases List.mem_append.1 hj with hj | hj
    · exact h.came j hj
    · rw [List.mem_singleton.1 hj, h.holding i result hphase]
      exact Option.some_ne_none _
  answers := (h.send (h.holding i result hphase)).1
  failures := (h.send (h.holding i result hphase)).2

theorem Reached.sound (h : Reached replies handed s) : Sound replies handed s := by
  induction h with
  | begun => exact .begun
  | step _ hstep ih =>
    cases hstep with
    | callEnds hphase hresult =>
      rw [Option.toList_none, List.append_nil]
      exact ih.callEnds hphase hresult
    | handsOver hphase _ => exact ih.handsOver hphase

/-- A task that has not finished leaves room in both channels. -/
theorem Sound.length_lt {i : Fin replies.length} (h : Sound replies handed s)
    (hi : s.phase i ≠ .finished) : handed.length < replies.length := by
  have hnodup : (i :: handed).Nodup :=
    List.nodup_cons.2 ⟨fun hmem => hi ((h.finished i).2 hmem), h.nodup⟩
  have hle := hnodup.length_le_card
  rwa [Fintype.card_fin] at hle

/-- No task waits for the coordinator: the channel for its result has room. -/
theorem Reached.hasRoom (h : Reached replies handed s) {i : Fin replies.length}
    {result : Except ClientError α} (hphase : s.phase i = .holding result) :
    s.HasRoom result := by
  have hlt : handed.length < replies.length :=
    h.sound.length_lt (i := i) fun hfinished => by
      rw [hphase] at hfinished
      cases hfinished
  cases result with
  | ok a =>
    rw [HasRoom, Mailbox.HasRoom, h.sound.answers]
    exact (List.length_filterMap_le _ _).trans_lt hlt
  | error e =>
    rw [HasRoom, Mailbox.HasRoom, h.sound.failures]
    exact (List.length_filterMap_le _ _).trans_lt hlt

theorem Reached.handsOver (h : Reached replies handed s) {i : Fin replies.length}
    {result : Except ClientError α} (hphase : s.phase i = .holding result) :
    Reached replies (handed ++ [i]) ((s.send result).moved i .finished) :=
  h.step (.handsOver hphase (h.hasRoom hphase))

/-- Once no call is outstanding, all tasks finish. -/
theorem Reached.exists_finished (h : Reached replies handed s)
    (hcalls : ∀ i, s.phase i ≠ .calling) :
    ∃ later s', Reached replies (handed ++ later) s' ∧ s'.Finished := by
  -- by induction on the number of tasks that have still to hand over a result
  induction hn : replies.length - handed.length generalizing handed s with
  | zero =>
    refine ⟨[], s, by rwa [List.append_nil], fun i => ?_⟩
    by_contra hi
    have hlt := h.sound.length_lt hi
    omega
  | succ n ih =>
    by_cases hfinished : s.Finished
    · exact ⟨[], s, by rwa [List.append_nil], hfinished⟩
    obtain ⟨i, hi⟩ := not_forall.1 hfinished
    have hlt := h.sound.length_lt hi
    cases hphase : s.phase i with
    | calling => exact absurd hphase (hcalls i)
    | finished => exact absurd hphase hi
    | holding result =>
      have hcalls' : ∀ j, ((s.send result).moved i .finished).phase j ≠ .calling := fun j => by
        by_cases hj : j = i
        · subst hj
          rw [moved_phase_self]
          exact fun h => nomatch h
        · rw [moved_phase_of_ne hj, send_phase]
          exact hcalls j
      obtain ⟨later, s', hreached, hdone⟩ := ih (h.handsOver hphase) hcalls' (by
        rw [List.length_append, List.length_singleton]
        omega)
      exact ⟨i :: later, s', by rwa [List.append_assoc, List.singleton_append] at hreached, hdone⟩

/-! ## The coordinator -/

/-- When all tasks have finished, each of them has handed over its result once. -/
theorem Reached.perm (h : Reached replies handed s) (hfinished : s.Finished) :
    handed.Perm (List.finRange replies.length) :=
  (List.perm_ext_iff_of_nodup h.sound.nodup (List.nodup_finRange _)).2 fun i =>
    ⟨fun _ => List.mem_finRange i, fun _ => (h.sound.finished i).1 (hfinished i)⟩

/-- The channels bring the result of the replies in the order in which they were handed over. -/
theorem Reached.collected_eq (h : Reached replies handed s) :
    s.collected = Reply.settle (handed.map fun i => replies[i]) := by
  rw [collected, h.sound.answers, h.sound.failures, Reply.settle, List.filterMap_map,
    List.filterMap_map]
  rfl

theorem Reached.settles (h : Reached replies handed s) :
    Reply.Settles (handed.map fun i => replies[i]) s.collected := by
  rw [h.collected_eq]
  refine Reply.settles_settle fun r hr => ?_
  obtain ⟨i, hi, rfl⟩ := List.mem_map.1 hr
  exact h.sound.came i hi

/-- Results can be handed over in every order. -/
theorem exists_reached (hnodup : handed.Nodup) (hcame : ∀ i ∈ handed, replies[i].result? ≠ none) :
    ∃ s, Reached replies handed s ∧ ∀ i ∉ handed, s.phase i = .calling := by
  induction handed using List.reverseRecOn with
  | nil => exact ⟨_, .begun, fun _ _ => rfl⟩
  | append_singleton handed i ih =>
    obtain ⟨hbefore, -, hdisjoint⟩ := List.nodup_append.1 hnodup
    have hi : i ∉ handed := fun hi => hdisjoint i hi i (List.mem_singleton_self i) rfl
    obtain ⟨s, hs, hcalling⟩ := ih hbefore fun j hj => hcame j (List.mem_append_left _ hj)
    obtain ⟨result, hresult⟩ := Option.ne_none_iff_exists'.1
      (hcame i (List.mem_append_right _ (List.mem_singleton_self i)))
    -- the call of the next task ends, and the task hands over its result
    have hended : Reached replies handed (s.moved i (.holding result)) := by
      have hstep := hs.step (.callEnds (hcalling i hi) hresult)
      rwa [Option.toList_none, List.append_nil] at hstep
    refine ⟨_, hended.handsOver (moved_phase_self s i _), fun j hj => ?_⟩
    rw [List.mem_append, List.mem_singleton, not_or] at hj
    rw [moved_phase_of_ne hj.2, send_phase, moved_phase_of_ne hj.2]
    exact hcalling j hj.1

/-- The tasks can hand over the results in the order in which the calls end. -/
theorem exists_inOrder (h : ∀ r ∈ replies, r.result? ≠ none) :
    ∃ handed s, Reached replies handed s ∧ s.Finished ∧
      handed.map (fun i => replies[i]) = Reply.inOrder replies := by
  let order := Task.sortByInstant (fun i : Fin replies.length => replies[i].delay)
    (List.finRange replies.length)
  have hperm : order.Perm (List.finRange replies.length) := Task.sortByInstant_perm _ _
  obtain ⟨s, hs, -⟩ := exists_reached (hperm.nodup_iff.2 (List.nodup_finRange _))
    fun i _ => h _ (List.getElem_mem i.isLt)
  refine ⟨order, s, hs, fun i => ?_, ?_⟩
  · exact (hs.sound.finished i).2 (hperm.mem_iff.2 (List.mem_finRange i))
  · -- sorting the tasks by their delays sorts the replies
    have hmap : Task.sortByInstant (·.delay)
        ((List.finRange replies.length).map fun i => replies[i]) =
          order.map fun i => replies[i] :=
      Task.sortByInstant_map _ _ fun _ _ _ _ => Iff.rfl
    rw [← hmap]
    exact congrArg (Task.sortByInstant (·.delay)) (List.map_getElem_finRange replies)

end Handover

end LedgerClient
