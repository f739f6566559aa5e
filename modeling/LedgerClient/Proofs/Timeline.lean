import Mathlib.Data.List.Sort
import LedgerClient.Network.Tasks
/-!
# Timelines of tasks

What `gather` and `race` make of the endings of tasks.

* `mem_completions`, `length_completions_lt_iff`: the completions are the endings
  before the deadline, and there are fewer of them than tasks exactly when some
  task has not ended by then.
* `race_ending_failure`, `race_ending_success_iff`, `race_ending_expired_iff`: a
  race ends with a failure that no other failure precedes, or it succeeds with
  all of its tasks, or it expires.
* `gather_ending_success_iff`: a gathering succeeds when all tasks have, at the last
  completion.  `lastInstant_iff_allBy`: this is the instant by which all members of
  a group have ended.
* `results_perm`: without failures the results are those of the tasks, in the
  order of their endings.
-/

namespace LedgerClient

namespace Task

variable {α β : Type}

/-! ## Sorting by instant -/

theorem insertByInstant_eq_orderedInsert (instant : β → Nat) (b : β) (l : List β) :
    insertByInstant instant b l = l.orderedInsert (fun x y => instant x ≤ instant y) b := by
  induction l with
  | nil => rfl
  | cons c l ih => rw [insertByInstant, List.orderedInsert_cons, ih]

theorem sortByInstant_eq_insertionSort (instant : β → Nat) (l : List β) :
    sortByInstant instant l = l.insertionSort (fun x y => instant x ≤ instant y) := by
  induction l with
  | nil => rfl
  | cons b l ih =>
    rw [sortByInstant, List.insertionSort_cons, ih, insertByInstant_eq_orderedInsert]

theorem sortByInstant_perm (instant : β → Nat) (l : List β) :
    (sortByInstant instant l).Perm l := by
  rw [sortByInstant_eq_insertionSort]
  exact List.perm_insertionSort _ l

theorem mem_sortByInstant {instant : β → Nat} {l : List β} {b : β} :
    b ∈ sortByInstant instant l ↔ b ∈ l :=
  (sortByInstant_perm instant l).mem_iff

theorem pairwise_sortByInstant (instant : β → Nat) (l : List β) :
    (sortByInstant instant l).Pairwise fun x y => instant x ≤ instant y := by
  let r : β → β → Prop := fun x y => instant x ≤ instant y
  have : Std.Total r := ⟨fun x y => Nat.le_total (instant x) (instant y)⟩
  have : IsTrans β r := ⟨fun _ _ _ => Nat.le_trans⟩
  rw [sortByInstant_eq_insertionSort]
  exact List.pairwise_insertionSort r l

/-- Entries that come in the order of their instants stay where they are. -/
theorem sortByInstant_of_pairwise {instant : β → Nat} {l : List β}
    (h : l.Pairwise fun x y => instant x ≤ instant y) : sortByInstant instant l = l := by
  rw [sortByInstant_eq_insertionSort]
  exact h.insertionSort_eq

/-- Entries that are replaced in the order of their instants are sorted as before. -/
theorem sortByInstant_map {γ : Type} {instant : β → Nat} {instant' : γ → Nat} (f : β → γ)
    (l : List β) (h : ∀ x ∈ l, ∀ y ∈ l, instant x ≤ instant y ↔ instant' (f x) ≤ instant' (f y)) :
    sortByInstant instant' (l.map f) = (sortByInstant instant l).map f := by
  rw [sortByInstant_eq_insertionSort, sortByInstant_eq_insertionSort]
  exact (List.map_insertionSort _ _ f l h).symm

theorem mem_askedBefore {instant : Nat} {tasks : List (Task α)} {a : Asked} :
    a ∈ askedBefore instant tasks ↔ (∃ task ∈ tasks, a ∈ task.asked) ∧ a.instant < instant := by
  rw [askedBefore, mem_sortByInstant, List.mem_filter, List.mem_flatMap, decide_eq_true_eq]

/-! ## Completions -/

/-- The task has ended before a deadline. -/
def EndsBefore (deadline : Nat) (task : Task α) : Prop :=
  ∃ t r, task.ending = some (t, r) ∧ t < deadline

theorem mem_completions {deadline : Nat} {tasks : List (Task α)} {t : Nat}
    {r : Except ClientError α} :
    (t, r) ∈ completions deadline tasks ↔
      (∃ task ∈ tasks, task.ending = some (t, r)) ∧ t < deadline := by
  simp only [completions, mem_sortByInstant, List.mem_filter, List.mem_filterMap,
    decide_eq_true_eq]

theorem pairwise_completions (deadline : Nat) (tasks : List (Task α)) :
    (completions deadline tasks).Pairwise fun x y => x.1 ≤ y.1 :=
  pairwise_sortByInstant _ _

theorem length_completions (deadline : Nat) (tasks : List (Task α)) :
    (completions deadline tasks).length =
      ((tasks.filterMap (·.ending)).filter fun e => e.1 < deadline).length :=
  (sortByInstant_perm _ _).length_eq

/-- A completion is missing exactly where a task has not ended. -/
theorem length_completions_lt_iff {deadline : Nat} {tasks : List (Task α)} :
    (completions deadline tasks).length < tasks.length ↔
      ∃ task ∈ tasks, ¬task.EndsBefore deadline := by
  rw [length_completions]
  induction tasks with
  | nil => simp
  | cons task tasks ih =>
    have hle : ((tasks.filterMap (·.ending)).filter fun e => e.1 < deadline).length ≤
        tasks.length :=
      (List.length_filter_le _ _).trans (List.length_filterMap_le _ _)
    rw [List.exists_mem_cons_iff]
    cases he : task.ending with
    | none =>
      have hnot : ¬task.EndsBefore deadline := by
        rintro ⟨t, r, h, -⟩
        rw [he] at h
        cases h
      simp only [List.filterMap_cons, he, List.length_cons]
      exact ⟨fun _ => .inl hnot, fun _ => by omega⟩
    | some e =>
      simp only [List.filterMap_cons, he]
      by_cases ht : e.1 < deadline
      · have hends : task.EndsBefore deadline := ⟨e.1, e.2, he, ht⟩
        rw [List.filter_cons_of_pos (by simpa using ht), List.length_cons, List.length_cons,
          Nat.add_lt_add_iff_right, ih]
        exact ⟨.inr, fun h => h.resolve_left fun hn => hn hends⟩
      · have hnot : ¬task.EndsBefore deadline := by
          rintro ⟨t, r, h, hlt⟩
          rw [he] at h
          cases h
          exact ht hlt
        rw [List.filter_cons_of_neg (by simpa using ht), List.length_cons]
        exact ⟨fun _ => .inl hnot, fun _ => by omega⟩

theorem not_length_completions_lt_iff {deadline : Nat} {tasks : List (Task α)} :
    ¬(completions deadline tasks).length < tasks.length ↔
      ∀ task ∈ tasks, task.EndsBefore deadline := by
  rw [length_completions_lt_iff]
  simp only [not_exists, not_and, not_not]

/-! ## The first failure -/

theorem firstFailure?_eq_none_iff {l : List (Nat × Except ClientError α)} :
    firstFailure? l = none ↔ ∀ t e, (t, .error e) ∉ l := by
  induction l with
  | nil => simp [firstFailure?]
  | cons x l ih =>
    obtain ⟨t, e | a⟩ := x
    · constructor
      · intro h
        cases h
      · intro h
        exact absurd List.mem_cons_self (h t e)
    · simp only [firstFailure?, ih, List.mem_cons, Prod.mk.injEq, reduceCtorEq, and_false,
        false_or]

theorem mem_of_firstFailure? {l : List (Nat × Except ClientError α)} {t : Nat} {e : ClientError}
    (h : firstFailure? l = some (t, e)) : (t, .error e) ∈ l := by
  induction l with
  | nil => cases h
  | cons x l ih =>
    obtain ⟨t', e' | a⟩ := x
    · cases h
      exact List.mem_cons_self
    · exact List.mem_cons_of_mem _ (ih h)

theorem firstFailure?_le {l : List (Nat × Except ClientError α)} {t : Nat} {e : ClientError}
    (hl : l.Pairwise fun x y => x.1 ≤ y.1) (h : firstFailure? l = some (t, e)) {t' : Nat}
    {e' : ClientError} (h' : (t', .error e') ∈ l) : t ≤ t' := by
  induction l with
  | nil => cases h
  | cons x l ih =>
    obtain ⟨hx, htail⟩ := List.pairwise_cons.1 hl
    obtain ⟨t₁, e₁ | a⟩ := x
    · cases h
      rcases List.mem_cons.1 h' with h' | h'
      · cases h'
        exact le_rfl
      · exact hx _ h'
    · rcases List.mem_cons.1 h' with h' | h'
      · cases h'
      · exact ih htail h h'

/-- A task fails at an instant before the deadline. -/
def FailsAt (deadline : Nat) (tasks : List (Task α)) (t : Nat) (e : ClientError) : Prop :=
  ∃ task ∈ tasks, task.ending = some (t, .error e) ∧ t < deadline

theorem mem_completions_error {deadline : Nat} {tasks : List (Task α)} {t : Nat}
    {e : ClientError} : (t, .error e) ∈ completions deadline tasks ↔
      FailsAt deadline tasks t e := by
  rw [mem_completions, FailsAt]
  constructor
  · rintro ⟨⟨task, hm, he⟩, ht⟩
    exact ⟨task, hm, he, ht⟩
  · rintro ⟨task, hm, he, ht⟩
    exact ⟨⟨task, hm, he⟩, ht⟩

theorem firstFailure?_completions_eq_none_iff {deadline : Nat} {tasks : List (Task α)} :
    firstFailure? (completions deadline tasks) = none ↔ ∀ t e, ¬FailsAt deadline tasks t e := by
  simp only [firstFailure?_eq_none_iff, mem_completions_error]

theorem firstFailure?_completions {deadline : Nat} {tasks : List (Task α)} {t : Nat}
    {e : ClientError} (h : firstFailure? (completions deadline tasks) = some (t, e)) :
    FailsAt deadline tasks t e ∧ ∀ t' e', FailsAt deadline tasks t' e' → t ≤ t' :=
  ⟨mem_completions_error.1 (mem_of_firstFailure? h), fun _ _ h' =>
    firstFailure?_le (pairwise_completions deadline tasks) h (mem_completions_error.2 h')⟩

/-! ## The last instant -/

theorem le_lastInstant (start : Nat) (l : List (Nat × Except ClientError α)) :
    start ≤ lastInstant start l ∧ ∀ x ∈ l, x.1 ≤ lastInstant start l := by
  induction l generalizing start with
  | nil => exact ⟨le_rfl, fun x hx => nomatch hx⟩
  | cons y l ih =>
    obtain ⟨h₁, h₂⟩ := ih (max start y.1)
    refine ⟨(Nat.le_max_left _ _).trans h₁, fun x hx => ?_⟩
    rcases List.mem_cons.1 hx with rfl | hx
    · exact (Nat.le_max_right _ _).trans h₁
    · exact h₂ x hx

theorem lastInstant_eq_or_mem (start : Nat) (l : List (Nat × Except ClientError α)) :
    lastInstant start l = start ∨ ∃ x ∈ l, x.1 = lastInstant start l := by
  induction l generalizing start with
  | nil => exact .inl rfl
  | cons y l ih =>
    rw [lastInstant]
    rcases ih (max start y.1) with h | ⟨x, hx, h⟩
    · rw [h]
      rcases Nat.le_total start y.1 with hle | hle
      · exact .inr ⟨y, List.mem_cons_self, by rw [Nat.max_eq_right hle]⟩
      · exact .inl (Nat.max_eq_left hle)
    · exact .inr ⟨x, List.mem_cons_of_mem _ hx, h⟩

theorem ending_le_lastInstant {start deadline t : Nat} {tasks : List (Task α)} {task : Task α}
    {r : Except ClientError α} (hm : task ∈ tasks) (he : task.ending = some (t, r))
    (ht : t < deadline) : t ≤ lastInstant start (completions deadline tasks) :=
  (le_lastInstant start _).2 (t, r) (mem_completions.2 ⟨⟨task, hm, he⟩, ht⟩)

/-! ## The end of a group -/

/-- All tasks end without failure before the deadline. -/
def AllSucceed (deadline : Nat) (tasks : List (Task α)) : Prop :=
  ∀ task ∈ tasks, ∃ t a, task.ending = some (t, .ok a) ∧ t < deadline

theorem allSucceed_iff {deadline : Nat} {tasks : List (Task α)} :
    AllSucceed deadline tasks ↔
      (∀ task ∈ tasks, task.EndsBefore deadline) ∧ ∀ t e, ¬FailsAt deadline tasks t e := by
  constructor
  · intro h
    refine ⟨fun task hm => ?_, ?_⟩
    · obtain ⟨t, a, he, ht⟩ := h task hm
      exact ⟨t, _, he, ht⟩
    · rintro t e ⟨task, hm, he, -⟩
      obtain ⟨t', a, he', -⟩ := h task hm
      rw [he] at he'
      cases he'
  · rintro ⟨hends, hfail⟩ task hm
    obtain ⟨t, e | a, he, ht⟩ := hends task hm
    · exact absurd ⟨task, hm, he, ht⟩ (hfail t e)
    · exact ⟨t, a, he, ht⟩

/-- Every member of a group that starts at an instant ends, the last of them at another. -/
structure AllBy {ι : Type} (start : Nat) (members : List ι) (ends : ι → Nat → Prop)
    (instant : Nat) : Prop where
  all : ∀ m ∈ members, ∃ t ≤ instant, ends m t
  last : instant = start ∨ ∃ m ∈ members, ends m instant

theorem AllBy.start_le {ι : Type} {start instant : Nat} {members : List ι}
    {ends : ι → Nat → Prop} (h : AllBy start members ends instant)
    (hstart : ∀ m ∈ members, ∀ t, ends m t → start ≤ t) : start ≤ instant := by
  rcases h.last with rfl | ⟨m, hm, he⟩
  · exact le_rfl
  · exact hstart m hm instant he

/-- Members that all end have a last one. -/
theorem exists_allBy {ι : Type} {start : Nat} {members : List ι} {ends : ι → Nat → Prop}
    (h : ∀ m ∈ members, ∃ t, start ≤ t ∧ ends m t) :
    ∃ instant, AllBy start members ends instant := by
  induction members with
  | nil => exact ⟨start, ⟨fun _ hm => absurd hm List.not_mem_nil, .inl rfl⟩⟩
  | cons m rest ih =>
    obtain ⟨t, hstart, ht⟩ := h m List.mem_cons_self
    obtain ⟨instant, hall, hlast⟩ := ih fun m hm => h m (List.mem_cons_of_mem _ hm)
    rcases Nat.le_total t instant with hle | hle
    · refine ⟨instant, List.forall_mem_cons.2 ⟨⟨t, hle, ht⟩, hall⟩, hlast.imp_right ?_⟩
      rintro ⟨m', hm', hend⟩
      exact ⟨m', List.mem_cons_of_mem _ hm', hend⟩
    · refine ⟨t, List.forall_mem_cons.2 ⟨⟨t, le_rfl, ht⟩, fun m' hm' => ?_⟩,
        .inr ⟨m, List.mem_cons_self, ht⟩⟩
      obtain ⟨t', hle', hend⟩ := hall m' hm'
      exact ⟨t', hle'.trans hle, hend⟩

theorem AllBy.map_iff {ι κ : Type} {start instant : Nat} {members : List ι} {f : ι → κ}
    {ends : κ → Nat → Prop} :
    AllBy start (members.map f) ends instant ↔
      AllBy start members (fun m => ends (f m)) instant := by
  constructor
  · rintro ⟨hall, hlast⟩
    refine ⟨fun m hm => hall _ (List.mem_map_of_mem hm), hlast.imp_right ?_⟩
    rintro ⟨_, hm, he⟩
    obtain ⟨m, hmem, rfl⟩ := List.mem_map.1 hm
    exact ⟨m, hmem, he⟩
  · rintro ⟨hall, hlast⟩
    refine ⟨fun _ hm => ?_, hlast.imp_right fun ⟨m, hm, he⟩ => ⟨_, List.mem_map_of_mem hm, he⟩⟩
    obtain ⟨m, hmem, rfl⟩ := List.mem_map.1 hm
    exact hall m hmem

section Members

variable {ι : Type} {members : List ι} {task : ι → Task α} {ends : ι → Nat → Prop}
  {start deadline t : Nat}

theorem ends_le_lastInstant
    (h : ∀ m ∈ members, ∀ t, ends m t ↔ t < deadline ∧ ∃ a, (task m).ending = some (t, .ok a))
    {m : ι} (hm : m ∈ members) (he : ends m t) :
    t ≤ lastInstant start (completions deadline (members.map task)) := by
  obtain ⟨ht, a, ha⟩ := (h m hm t).1 he
  exact ending_le_lastInstant (List.mem_map_of_mem hm) ha ht

/-- Tasks that succeed before the deadline succeed by their last completion. -/
theorem AllSucceed.allBy
    (h : ∀ m ∈ members, ∀ t, ends m t ↔ t < deadline ∧ ∃ a, (task m).ending = some (t, .ok a))
    (hall : AllSucceed deadline (members.map task)) :
    AllBy start members ends (lastInstant start (completions deadline (members.map task))) := by
  refine ⟨fun m hm => ?_, ?_⟩
  · obtain ⟨t, a, ha, ht⟩ := hall _ (List.mem_map_of_mem hm)
    have he := (h m hm t).2 ⟨ht, a, ha⟩
    exact ⟨t, ends_le_lastInstant h hm he, he⟩
  · rcases lastInstant_eq_or_mem start (completions deadline (members.map task)) with
      hl | ⟨⟨t₀, r₀⟩, hx, hl⟩
    · exact .inl hl
    · obtain ⟨⟨_, hm, he⟩, ht⟩ := mem_completions.1 hx
      obtain ⟨m, hmem, rfl⟩ := List.mem_map.1 hm
      obtain ⟨t, a, ha, -⟩ := hall _ hm
      rw [he] at ha
      cases ha
      rw [← hl]
      exact .inr ⟨m, hmem, (h m hmem _).2 ⟨ht, a, he⟩⟩

theorem AllBy.allSucceed
    (h : ∀ m ∈ members, ∀ t, ends m t ↔ t < deadline ∧ ∃ a, (task m).ending = some (t, .ok a))
    (hby : AllBy start members ends t) : AllSucceed deadline (members.map task) := by
  intro x hx
  obtain ⟨m, hm, rfl⟩ := List.mem_map.1 hx
  obtain ⟨t', -, he⟩ := hby.all m hm
  obtain ⟨ht, a, ha⟩ := (h m hm t').1 he
  exact ⟨t', a, ha, ht⟩

/-- The instant by which all members have ended is that of the last completion. -/
theorem AllBy.eq_lastInstant
    (h : ∀ m ∈ members, ∀ t, ends m t ↔ t < deadline ∧ ∃ a, (task m).ending = some (t, .ok a))
    (hstart : ∀ m ∈ members, ∀ t, ends m t → start ≤ t) (hby : AllBy start members ends t) :
    t = lastInstant start (completions deadline (members.map task)) := by
  refine Nat.le_antisymm ?_ ?_
  · rcases hby.last with rfl | ⟨m, hm, he⟩
    · exact (le_lastInstant _ _).1
    · exact ends_le_lastInstant h hm he
  · -- Every completion is the end of a member, which comes by `t`.
    rcases lastInstant_eq_or_mem start (completions deadline (members.map task)) with
      hl | ⟨⟨t₀, r₀⟩, hx, hl⟩
    · rw [hl]
      exact hby.start_le hstart
    · obtain ⟨⟨_, hm, he⟩, ht⟩ := mem_completions.1 hx
      obtain ⟨m, hmem, rfl⟩ := List.mem_map.1 hm
      obtain ⟨t', hle', hends⟩ := hby.all m hmem
      obtain ⟨-, a, ha⟩ := (h m hmem t').1 hends
      rw [he] at ha
      cases ha
      rw [← hl]
      exact hle'

theorem lastInstant_iff_allBy
    (h : ∀ m ∈ members, ∀ t, ends m t ↔ t < deadline ∧ ∃ a, (task m).ending = some (t, .ok a))
    (hstart : ∀ m ∈ members, ∀ t, ends m t → start ≤ t) :
    AllSucceed deadline (members.map task) ∧
        t = lastInstant start (completions deadline (members.map task)) ↔
      AllBy start members ends t := by
  constructor
  · rintro ⟨hall, rfl⟩
    exact hall.allBy h
  · intro hby
    exact ⟨hby.allSucceed h, hby.eq_lastInstant h hstart⟩

end Members

/-! ## Results -/

/-- What the task brings, if it ends without failure. -/
def value? (task : Task α) : Option α := task.ending.bind (·.2.toOption)

theorem value?_of_ending {task : Task α} {t : Nat} {a : α} (h : task.ending = some (t, .ok a)) :
    task.value? = some a := by
  rw [value?, h]
  rfl

theorem results_perm {deadline : Nat} {tasks : List (Task α)}
    (h : ∀ task ∈ tasks, task.EndsBefore deadline) :
    (results (completions deadline tasks)).Perm (tasks.filterMap value?) := by
  have hall : (tasks.filterMap (·.ending)).filter (fun e => e.1 < deadline) =
      tasks.filterMap (·.ending) := by
    rw [List.filter_eq_self]
    intro e he
    obtain ⟨task, hm, he⟩ := List.mem_filterMap.1 he
    obtain ⟨t, r, he', ht⟩ := h task hm
    rw [he] at he'
    cases he'
    exact decide_eq_true ht
  refine ((sortByInstant_perm _ _).filterMap _).trans ?_
  rw [hall, List.filterMap_filterMap]
  exact .refl _

theorem mem_results_completions {deadline : Nat} {tasks : List (Task α)} {a : α} :
    a ∈ results (completions deadline tasks) ↔
      ∃ task ∈ tasks, ∃ t < deadline, task.ending = some (t, .ok a) := by
  rw [results, List.mem_filterMap]
  constructor
  · rintro ⟨⟨t, r⟩, hm, hr⟩
    obtain ⟨⟨task, htask, he⟩, ht⟩ := mem_completions.1 hm
    cases r with
    | error e => cases hr
    | ok b =>
      cases hr
      exact ⟨task, htask, t, ht, he⟩
  · rintro ⟨task, htask, t, ht, he⟩
    exact ⟨(t, .ok a), mem_completions.2 ⟨⟨task, htask, he⟩, ht⟩, rfl⟩

/-! ## Races -/

theorem race_ending_failure {start deadline t : Nat} {tasks : List (Task α)} {e : ClientError}
    (h : (race start deadline tasks).ending = some (t, some e)) :
    FailsAt deadline tasks t e ∧ ∀ t' e', FailsAt deadline tasks t' e' → t ≤ t' := by
  rw [race] at h
  split at h
  · rename_i hf
    simp only [GroupEnd.reached, Option.some.injEq, Prod.mk.injEq] at h
    obtain ⟨rfl, rfl⟩ := h
    exact firstFailure?_completions hf
  · split at h
    · cases h
    · cases h

/-- A race succeeds at the last ending of its tasks if all of them succeed. -/
theorem race_ending_success_iff {start deadline t : Nat} {tasks : List (Task α)} :
    (race start deadline tasks).ending = some (t, none) ↔
      AllSucceed deadline tasks ∧ t = lastInstant start (completions deadline tasks) := by
  rw [allSucceed_iff, ← not_length_completions_lt_iff, ← firstFailure?_completions_eq_none_iff,
    race]
  constructor
  · intro h
    split at h
    · cases h
    · rename_i hf
      split at h
      · cases h
      · rename_i hl
        simp only [GroupEnd.reached, Option.some.injEq, Prod.mk.injEq] at h
        exact ⟨⟨hl, hf⟩, h.1.symm⟩
  · rintro ⟨⟨hl, hf⟩, rfl⟩
    rw [hf]
    simp only [if_neg hl]
    rfl

/-- A race expires when nothing has failed and something has not ended. -/
theorem race_ending_expired_iff {start deadline : Nat} {tasks : List (Task α)} :
    (race start deadline tasks).ending = none ↔
      (∀ t e, ¬FailsAt deadline tasks t e) ∧ ¬AllSucceed deadline tasks := by
  rw [allSucceed_iff, ← not_length_completions_lt_iff, ← firstFailure?_completions_eq_none_iff,
    race]
  constructor
  · intro h
    split at h
    · cases h
    · rename_i hf
      split at h
      · rename_i hl
        exact ⟨hf, fun hn => hn.1 hl⟩
      · cases h
  · rintro ⟨hf, hn⟩
    have hl := Decidable.byContradiction fun hl => hn ⟨hl, hf⟩
    rw [hf]
    simp only [if_pos hl]
    rfl

/-- How far a race comes: to its first failure, or not to its end, or to the last of its tasks. -/
theorem race_cases (start deadline : Nat) (tasks : List (Task α)) :
    (∃ t e, firstFailure? (completions deadline tasks) = some (t, e) ∧
      race start deadline tasks =
        .reached t ((completions deadline tasks).filter fun c => c.1 ≤ t) (some e)) ∨
    firstFailure? (completions deadline tasks) = none ∧
      (race start deadline tasks = .expired deadline (completions deadline tasks) ∨
        race start deadline tasks =
          .reached (lastInstant start (completions deadline tasks)) (completions deadline tasks)
            none) := by
  cases hfail : firstFailure? (completions deadline tasks) with
  | some failure =>
    obtain ⟨t, e⟩ := failure
    refine .inl ⟨t, e, rfl, ?_⟩
    simp only [race, hfail]
  | none =>
    refine .inr ⟨rfl, ?_⟩
    simp only [race, hfail]
    exact (ite_eq_or_eq _ _ _)

/-- A race that does not end with a failure sees all completions. -/
theorem race_completions_of_not_failed {start deadline : Nat} {tasks : List (Task α)}
    (h : ∀ t e, (race start deadline tasks).ending ≠ some (t, some e)) :
    (race start deadline tasks).completions = completions deadline tasks := by
  rw [race] at h ⊢
  cases hf : firstFailure? (completions deadline tasks) with
  | some failure =>
    rw [hf] at h
    exact absurd rfl (h failure.1 failure.2)
  | none =>
    dsimp only
    split <;> rfl

theorem race_completions_of_success {start deadline t : Nat} {tasks : List (Task α)}
    (h : (race start deadline tasks).ending = some (t, none)) :
    (race start deadline tasks).completions = completions deadline tasks := by
  refine race_completions_of_not_failed fun t' e h' => ?_
  rw [h] at h'
  cases h'

/-- Up to the instant at which a race ends all of it has happened. -/
theorem race_horizon {start deadline t : Nat} {tasks : List (Task α)}
    {failure : Option ClientError}
    (h : (race start deadline tasks).ending = some (t, failure)) :
    (race start deadline tasks).horizon = t + 1 := by
  rw [race] at h ⊢
  cases hf : firstFailure? (completions deadline tasks) with
  | some first =>
    rw [hf] at h
    cases h
    rfl
  | none =>
    rw [hf] at h
    dsimp only at h ⊢
    split at h
    · cases h
    · rename_i hl
      cases h
      rw [if_neg hl]
      rfl

/-- A race sees the completions up to its horizon. -/
theorem race_completions_eq (start deadline : Nat) (tasks : List (Task α)) :
    (race start deadline tasks).completions = (completions deadline tasks).filter
      fun c => c.1 < (race start deadline tasks).horizon := by
  rw [race]
  cases firstFailure? (completions deadline tasks) with
  | some first => exact List.filter_congr fun c _ => decide_eq_decide.2 Nat.lt_succ_iff.symm
  | none =>
    dsimp only
    split
    · refine (List.filter_eq_self.2 fun c hc => decide_eq_true ?_).symm
      exact (mem_completions.1 hc).2
    · refine (List.filter_eq_self.2 fun c hc => decide_eq_true ?_).symm
      exact Nat.lt_succ_of_le ((le_lastInstant start _).2 c hc)

/-- What a race has seen has ended before the deadline. -/
theorem lt_deadline_of_lt_race_horizon {start deadline t : Nat} {tasks : List (Task α)}
    {task : Task α} {r : Except ClientError α} (hm : task ∈ tasks)
    (he : task.ending = some (t, r)) (h : t < (race start deadline tasks).horizon) :
    t < deadline := by
  rw [race] at h
  cases hf : firstFailure? (completions deadline tasks) with
  | some first =>
    obtain ⟨⟨_, _, _, hlt⟩, -⟩ := firstFailure?_completions hf
    rw [hf] at h
    exact (Nat.lt_succ_iff.1 h).trans_lt hlt
  | none =>
    rw [hf] at h
    dsimp only at h
    split at h
    · exact h
    · rename_i hall
      obtain ⟨t', r', he', hlt⟩ := not_length_completions_lt_iff.1 hall task hm
      cases he.symm.trans he'
      exact hlt

/-- The task has succeeded before a deadline. -/
def SucceedsBefore (deadline : Nat) (task : Task α) : Prop :=
  ∃ t a, task.ending = some (t, .ok a) ∧ t < deadline

instance (deadline : Nat) (task : Task α) : Decidable (task.SucceedsBefore deadline) :=
  match h : task.ending with
  | some (t, .ok a) => decidable_of_iff (t < deadline)
      ⟨fun hlt => ⟨t, a, h, hlt⟩, fun ⟨_, _, h', hlt⟩ => by cases h.symm.trans h'; exact hlt⟩
  | some (_, .error _) => .isFalse fun ⟨_, _, h', _⟩ => by cases h.symm.trans h'
  | none => .isFalse fun ⟨_, _, h', _⟩ => by cases h.symm.trans h'

/-- A race brings one result for each task that succeeds before its horizon. -/
theorem length_race_results_eq_countP (start deadline : Nat) (tasks : List (Task α)) :
    (race start deadline tasks).results.length =
      tasks.countP fun task => task.SucceedsBefore (race start deadline tasks).horizon := by
  rw [GroupEnd.results, results, race_completions_eq, List.length_filterMap_eq_countP,
    List.countP_filter, completions, (sortByInstant_perm _ _).countP_eq, List.countP_filter,
    List.countP_filterMap]
  refine List.countP_congr fun task hm => ?_
  cases he : task.ending with
  | none => simp [SucceedsBefore, he]
  | some ending =>
    obtain ⟨t, e | a⟩ := ending
    · simp [SucceedsBefore, he, Except.toOption]
    · have hlt : t < (race start deadline tasks).horizon → t < deadline :=
        lt_deadline_of_lt_race_horizon hm he
      simpa [SucceedsBefore, he, Except.toOption] using hlt

/-- A race brings at most one result for each task. -/
theorem length_race_results_le (start deadline : Nat) (tasks : List (Task α)) :
    (race start deadline tasks).results.length ≤ tasks.length := by
  rw [length_race_results_eq_countP]
  exact List.countP_le_length

/-- A race without failures brings what its tasks bring. -/
theorem race_results_perm {start deadline t : Nat} {tasks : List (Task α)}
    (h : (race start deadline tasks).ending = some (t, none)) :
    (race start deadline tasks).results.Perm (tasks.filterMap value?) := by
  have hall := (allSucceed_iff.1 (race_ending_success_iff.1 h).1).1
  rw [GroupEnd.results, race_completions_of_success h]
  exact results_perm hall

theorem length_race_results {start deadline t : Nat} {tasks : List (Task α)}
    (h : (race start deadline tasks).ending = some (t, none)) :
    (race start deadline tasks).results.length = tasks.length := by
  have hall := (race_ending_success_iff.1 h).1
  rw [(race_results_perm h).length_eq, List.length_filterMap_eq_countP, List.countP_eq_length]
  intro task hm
  obtain ⟨t, a, he, -⟩ := hall task hm
  rw [value?_of_ending he]
  rfl

/-! ## Gatherings -/

/-- A gathering succeeds at the last ending of its tasks if all of them succeed. -/
theorem gather_ending_success_iff {start deadline t : Nat} {tasks : List (Task α)} :
    (gather start deadline tasks).ending = some (t, none) ↔
      AllSucceed deadline tasks ∧ t = lastInstant start (completions deadline tasks) := by
  rw [allSucceed_iff, ← not_length_completions_lt_iff, ← firstFailure?_completions_eq_none_iff,
    gather]
  constructor
  · intro h
    split at h
    · cases h
    · rename_i hl
      simp only [GroupEnd.reached, Option.some.injEq, Prod.mk.injEq] at h
      exact ⟨⟨hl, Option.map_eq_none_iff.1 h.2⟩, h.1.symm⟩
  · rintro ⟨⟨hl, hf⟩, rfl⟩
    rw [if_neg hl, hf]
    rfl

theorem gather_horizon {start deadline t : Nat} {tasks : List (Task α)}
    {failure : Option ClientError}
    (h : (gather start deadline tasks).ending = some (t, failure)) :
    (gather start deadline tasks).horizon = t + 1 := by
  rw [gather] at h ⊢
  split at h
  · cases h
  · rename_i hl
    cases h
    rw [if_neg hl]
    rfl

theorem gather_completions (start deadline : Nat) (tasks : List (Task α)) :
    (gather start deadline tasks).completions = completions deadline tasks := by
  rw [gather]
  split <;> rfl

/-- A gathering without failures brings what its tasks bring. -/
theorem gather_results_perm {start deadline t : Nat} {tasks : List (Task α)}
    (h : (gather start deadline tasks).ending = some (t, none)) :
    (gather start deadline tasks).results.Perm (tasks.filterMap value?) := by
  have hall := (allSucceed_iff.1 (gather_ending_success_iff.1 h).1).1
  rw [GroupEnd.results, gather_completions]
  exact results_perm hall

end Task

end LedgerClient
