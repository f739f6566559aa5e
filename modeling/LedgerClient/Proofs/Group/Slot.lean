import LedgerClient.Client.SharedGroup
import LedgerClient.Proofs.Group.History
/-!
# The error slot of a group

The tasks of a call on a `SharedGroup` share a slot for the first error.  As long as it is empty when
a call begins, the calls are those of the group without it.

* `takeIn_spec`, `loop_eq_race`: a loop that begins with an empty slot stops at the first failure.
* `connect_eq`, `wait_eq`: with an empty slot, the calls are those of `DeliverGroup`, and they leave
  the slot empty.
* `connect_of_fails`: a connect that fails leaves a group without streams, by either exit.
* `FailsTo`: connects that have all failed lead from one group to another.
  `FailsTo.asNew`: then a new group is as new, and what is called next goes as on a new one.
-/

namespace LedgerClient

variable {α : Type} {p q : Progress} {milliseconds : Nat}

theorem DeliverGroup.connecting_eq (g : DeliverGroup) (milliseconds : Nat) (p : Progress) :
    g.connecting milliseconds p = g.connectingUntil milliseconds p
      (Task.race p.clock (p.before (p.clock + milliseconds)) (g.connectTasks p)) := rfl

/-- The group that a connect leaves, by how far the race of its peers comes. -/
theorem DeliverGroup.connect_fst {g : DeliverGroup} {race : GroupEnd (Stream DeliverResponse)}
    (h : (g.connecting milliseconds p).group = race) :
    (g.connect milliseconds p).1 = { g with streams := match race.ending with
      | some (_, some _) => []
      | some (_, none) => g.streams ++ race.results
      | none => if p.before (p.clock + milliseconds) = p.clock + milliseconds then []
        else g.streams ++ race.results } := by
  subst h
  have hrun := Client.awaitFan_apply (g.connecting milliseconds p) p
  rw [connect, show (Client.awaitFan (g.connecting milliseconds p)).run p = _ from hrun]
  change { g with streams := _ } = { g with streams := _ }
  congr 1
  cases (g.connecting milliseconds p).group.ending with
  | none =>
    dsimp only
    by_cases hreach : p.before (p.clock + milliseconds) = p.clock + milliseconds
    · rw [if_pos hreach, if_pos (show p.Reaches (g.connecting milliseconds p).deadline from hreach)]
    · rw [if_neg hreach,
        if_neg (show ¬p.Reaches (g.connecting milliseconds p).deadline from hreach)]
  | some ending =>
    obtain ⟨instant, failure⟩ := ending
    cases failure <;> rfl

namespace SharedGroup

/-! ## Loops that begin with an empty slot -/

section Loops

variable {step : SharedGroup → Except ClientError α → SharedGroup} {g : SharedGroup}

/-- A step notes a failure in the slot, and nothing else there. -/
structure Records (step : SharedGroup → Except ClientError α → SharedGroup) : Prop where
  ok : ∀ g a, (step g (.ok a)).error = g.error
  error : ∀ g e, step g (.error e) = g.record e

theorem records_join : Records join := ⟨fun _ _ => rfl, fun _ _ => rfl⟩

theorem records_report : Records report := ⟨fun _ _ => rfl, fun _ _ => rfl⟩

/-- The loop stops at the first failure, with this failure in the slot. -/
theorem takeIn_spec (hstep : Records step) (h : g.error = none)
    (l : List (Nat × Except ClientError α)) :
    (takeIn step g l).2 = (Task.firstFailure? l).map (·.1) ∧
      (takeIn step g l).1.error = (Task.firstFailure? l).map (·.2) := by
  induction l generalizing g with
  | nil => exact ⟨rfl, h⟩
  | cons ending rest ih =>
    obtain ⟨instant, result⟩ := ending
    cases result with
    | error e =>
      have herror : (step g (.error e)).error = some e := by
        rw [hstep.error, record, h]
        rfl
      rw [takeIn, if_pos (Option.isSome_of_eq_some herror)]
      exact ⟨rfl, herror⟩
    | ok a =>
      have herror : (step g (.ok a)).error = none := (hstep.ok g a).trans h
      -- The slot is still empty, and the loop goes on with the next ending.
      rw [takeIn, if_neg (Option.not_isSome_iff_eq_none.2 herror)]
      exact ih herror

theorem loop_eq_race (hstep : Records step) (h : g.error = none) (start deadline : Nat)
    (tasks : List (Task α)) :
    g.loop step start deadline tasks = Task.race start deadline tasks := by
  obtain ⟨hinstant, herror⟩ := takeIn_spec hstep h (Task.completions deadline tasks)
  rw [loop, Task.race]
  cases htaken : takeIn step g (Task.completions deadline tasks) with
  | mk left instant =>
    rw [htaken] at hinstant herror
    cases hfail : Task.firstFailure? (Task.completions deadline tasks) with
    | none =>
      rw [hfail] at hinstant herror
      simp only [Option.map_none] at hinstant herror
      simp only [hinstant, herror]
    | some failure =>
      rw [hfail] at hinstant herror
      simp only [Option.map_some] at hinstant herror
      simp only [hinstant, herror]

end Loops

/-! ## Calls that begin with an empty slot -/

section Calls

variable {g : SharedGroup}

/-- Taking in peers that connect changes the streams and the slot only. -/
theorem exists_takeIn_join (g : SharedGroup)
    (l : List (Nat × Except ClientError (Stream DeliverResponse))) :
    ∃ streams error, (takeIn join g l).1 = { g with streams := streams, error := error } := by
  induction l generalizing g with
  | nil => exact ⟨_, _, rfl⟩
  | cons ending rest ih =>
    obtain ⟨instant, result⟩ := ending
    obtain ⟨streams, error, hjoin⟩ :
        ∃ streams error, g.join result = { g with streams := streams, error := error } := by
      cases result <;> exact ⟨_, _, rfl⟩
    rw [takeIn, hjoin]
    split
    · exact ⟨_, _, rfl⟩
    · obtain ⟨streams', error', hrest⟩ := ih { g with streams := streams, error := error }
      exact ⟨streams', error', hrest⟩

/-- Without a failure, every stream that has come is in the group. -/
theorem takeIn_join_of_ok (h : g.error = none)
    {l : List (Nat × Except ClientError (Stream DeliverResponse))}
    (hl : Task.firstFailure? l = none) :
    (takeIn join g l).1 = { g with streams := g.streams ++ Task.results l } := by
  induction l generalizing g with
  | nil =>
    rw [takeIn, show Task.results _ = ([] : List (Stream DeliverResponse)) from rfl,
      List.append_nil]
  | cons ending rest ih =>
    obtain ⟨instant, result⟩ := ending
    cases result with
    | error e => cases hl
    | ok stream =>
      have hslot : (g.join (.ok stream)).error = none := h
      rw [takeIn, if_neg (Option.not_isSome_iff_eq_none.2 hslot), ih hslot hl]
      change { g with streams := g.streams ++ [stream] ++ Task.results rest } =
        { g with streams := g.streams ++ (stream :: Task.results rest) }
      rw [List.append_assoc]
      rfl

/-- What streams have reported is counted, and the first failure is in the slot. -/
theorem foldl_report (g : SharedGroup) (l : List (Nat × Except ClientError Unit)) :
    (l.map (·.2)).foldl report g = { g with
      confirmed := g.confirmed + (Task.results l).length
      error := g.error.or ((Task.firstFailure? l).map Prod.snd) } := by
  induction l generalizing g with
  | nil => simp [Task.results, Task.firstFailure?]
  | cons ending rest ih =>
    obtain ⟨instant, result⟩ := ending
    rw [List.map_cons, List.foldl_cons, ih]
    cases result with
    | error e =>
      change { g with
        confirmed := g.confirmed + (Task.results rest).length
        error := (g.error.or (some e)).or ((Task.firstFailure? rest).map Prod.snd) } = _
      rw [Option.or_assoc]
      rfl
    | ok _ =>
      change { g with
        confirmed := g.confirmed + 1 + (Task.results rest).length
        error := g.error.or ((Task.firstFailure? rest).map Prod.snd) } =
        { g with
          confirmed := g.confirmed + (Task.results rest).length.succ
          error := g.error.or ((Task.firstFailure? rest).map Prod.snd) }
      rw [Nat.add_assoc, Nat.add_comm 1]

/-- With an empty slot a connect is that of the group without the slot, which stays empty. -/
theorem connect_eq (h : g.error = none) (milliseconds : Nat) (p : Progress) :
    g.connect milliseconds p = (⟨(g.toDeliverGroup.connect milliseconds p).1, none⟩,
      (g.toDeliverGroup.connect milliseconds p).2) := by
  let deadline := p.clock + milliseconds
  let endings := Task.completions (p.before deadline) (g.connectTasks p)
  have hgroup := loop_eq_race records_join h p.clock (p.before deadline) (g.connectTasks p)
  refine Prod.ext ?_ ?_
  · obtain ⟨t, e, -, hrace⟩ | ⟨hok, hrace⟩ :=
      Task.race_cases p.clock (p.before deadline) (g.connectTasks p)
    · -- Whatever has been taken in before the failure, the exit drops it.
      obtain ⟨streams, error, hjoined⟩ := exists_takeIn_join g endings
      rw [connect, hgroup, DeliverGroup.connect_fst (g := g.toDeliverGroup) hrace, hrace, hjoined]
      rfl
    · have hjoined : (takeIn join g endings).1 = _ := takeIn_join_of_ok h hok
      obtain ⟨group, slot⟩ := g
      obtain rfl : slot = none := h
      obtain hrace | hrace := hrace
      · rw [connect, hgroup, DeliverGroup.connect_fst hrace, hrace, hjoined]
        by_cases hreach : p.before (p.clock + milliseconds) = p.clock + milliseconds
        · simp only [GroupEnd.expired, if_pos hreach]
        · simp only [GroupEnd.expired, if_neg hreach]
          rfl
      · rw [connect, hgroup, DeliverGroup.connect_fst hrace, hrace, hjoined]
        rfl
  · rw [connect, hgroup, DeliverGroup.connect_run, DeliverGroup.connecting_eq]

/-- With an empty slot a wait is that of the group without the slot, which stays empty. -/
theorem wait_eq (h : g.error = none) (milliseconds : Nat) (p : Progress) :
    g.wait milliseconds p = (⟨(g.toDeliverGroup.wait milliseconds p).1, none⟩,
      (g.toDeliverGroup.wait milliseconds p).2) := by
  obtain ⟨group, slot⟩ := g
  obtain rfl : slot = none := h
  let fan := group.waiting milliseconds p
  have hgroup : loop report ⟨{ group with streams := [] }, none⟩ p.clock (p.before fan.deadline)
      fan.tasks = fan.group := loop_eq_race records_report rfl _ _ _
  refine Prod.ext ?_ ?_
  · obtain ⟨t, e, -, hrace⟩ | ⟨hok, hrace⟩ :=
      Task.race_cases p.clock (p.before fan.deadline) fan.tasks
    · rw [wait, hgroup, DeliverGroup.wait, show fan.group = _ from hrace]
      dsimp only [GroupEnd.reached]
      rw [foldl_report]
      rfl
    · have hcompletions : fan.group.completions =
          Task.completions (p.before fan.deadline) fan.tasks := by
        obtain hrace | hrace := hrace <;> exact congrArg GroupEnd.completions hrace
      have hheard := foldl_report ⟨{ group with streams := [] }, none⟩ fan.group.completions
      rw [hcompletions, hok] at hheard
      rw [wait, hgroup, hcompletions, hheard]
      obtain hrace | hrace := hrace
      · rw [DeliverGroup.wait, show (group.waiting milliseconds p).group = _ from hrace]
        rfl
      · rw [DeliverGroup.wait, show (group.waiting milliseconds p).group = _ from hrace]
        rfl
  · rw [wait, hgroup]
    rfl

end Calls

/-! ## Connects that fail -/

/-- Connects that have all failed lead from a group to another. -/
inductive FailsTo (g : SharedGroup) : SharedGroup → Prop
  | refl : FailsTo g g
  | connect {g' : SharedGroup} {milliseconds : Nat} {p q : Progress} {e : ClientError} :
      FailsTo g g' → (g'.connect milliseconds p).2 = .done (.error e) q →
      FailsTo g (g'.connect milliseconds p).1

variable {g g' : SharedGroup} {e : ClientError}

/-- A connect that fails, by an error or by the deadline, drops the streams and changes nothing
else. -/
theorem connect_of_fails (h : g.error = none)
    (hfails : (g.connect milliseconds p).2 = .done (.error e) q) :
    (g.connect milliseconds p).1 = { g with streams := [] } := by
  rw [connect_eq h] at hfails ⊢
  have hstreams : (g.toDeliverGroup.connect milliseconds p).1.streams = [] :=
    DeliverGroup.connect_streams_of_fails (Option.isSome_iff_exists.2 ⟨e, by
      rw [show (g.toDeliverGroup.connect milliseconds p).2 = _ from hfails]
      rfl⟩)
  obtain ⟨group, slot⟩ := g
  obtain rfl : slot = none := h
  have hrest : (group.connect milliseconds p).1 =
      { group with streams := (group.connect milliseconds p).1.streams } := rfl
  rw [hrest, hstreams]

/-- A group without streams and with an empty slot stays as it is while connects fail. -/
theorem FailsTo.eq (hstreams : g.streams = []) (herror : g.error = none) (h : g.FailsTo g') :
    g' = g := by
  induction h with
  | refl => rfl
  | connect _ hfails ih =>
    rw [connect_of_fails (ih ▸ herror) hfails, ih, ← hstreams]

/-- A new group on which nothing but failed connects have happened is as new: it holds no stream,
its slot is empty and nothing has confirmed.  A connect and a wait that follow give what they give
on a new group, whatever its peers do. -/
theorem FailsTo.asNew {clients : List DeliverPeer} {signer : Signer} {channelId txId : String}
    {tlsCertHash : Option Bytes}
    (h : (fresh clients signer channelId txId tlsCertHash).FailsTo g) :
    g.streams = [] ∧ g.error = none ∧ g.confirmed = 0 ∧
      g = fresh clients signer channelId txId tlsCertHash ∧
      ∀ (connectMs waitMs : Nat) (p p' : Progress),
        let new := DeliverGroup.fresh clients signer channelId txId tlsCertHash
        let connected := g.connect connectMs p
        let waited := connected.1.wait waitMs p'
        connected.2 = (new.connect connectMs p).2 ∧
          waited.2 = ((new.connect connectMs p).1.wait waitMs p').2 ∧
          waited.1.confirmed = ((new.connect connectMs p).1.wait waitMs p').1.confirmed := by
  obtain rfl := h.eq rfl rfl
  refine ⟨rfl, rfl, rfl, rfl, fun connectMs waitMs p p' => ?_⟩
  dsimp only
  rw [connect_eq rfl, wait_eq rfl]
  exact ⟨rfl, rfl, rfl⟩

end SharedGroup

/-! ### A flaky peer -/

/-- A peer that refuses the first session, does not answer to the second one and is steady from then
on. -/
def flakyPeer : DeliverPeer where
  id := ⟨.deliver, 1, "peer1:7051"⟩
  session
    | 0 => { opening := { delay := 5, outcome := .failed (.transport "peer1:7051" "refused") } }
    | 1 => { opening := { delay := 0, outcome := .silent } }
    | n => steadyPeer.session n

/-- The first connect fails by an error and the second one by the deadline, with one stream open
each time.  Then the group connects, and both peers confirm. -/
theorem asNew_flakyPeer :
    let new := SharedGroup.fresh [steadyPeer, flakyPeer] steadySigner "ch" "tx" none
    let first := new.connect 10 { headers := epoch }
    let second := first.1.connect 10 first.2.progress
    let third := second.1.connect 10 second.2.progress
    let waited := third.1.wait 10 { third.2.progress with lastTx := "tx" }
    first.2.failure? = some (.transport "peer1:7051" "refused") ∧
      second.2.failure? = some (.deliverTimeout .connect "tx" 10) ∧
      new.FailsTo second.1 ∧ second.1 = new ∧ third.2.result? = some (.ok ()) ∧
      waited.2.result? = some (.ok ()) ∧ waited.1.confirmed = 2 := by
  intro new first second third waited
  have hfirst : first.2.failure? = some (.transport "peer1:7051" "refused") := by decide +kernel
  have hsecond : second.2.failure? = some (.deliverTimeout .connect "tx" 10) := by decide +kernel
  obtain ⟨q, hq⟩ := Run.done_error_of_failure? hfirst
  obtain ⟨q', hq'⟩ := Run.done_error_of_failure? hsecond
  have hfails : new.FailsTo second.1 := .connect (.connect .refl hq) hq'
  obtain ⟨-, -, -, hnew, -⟩ := SharedGroup.FailsTo.asNew hfails
  refine ⟨hfirst, hsecond, hfails, hnew, ?_, ?_, ?_⟩
  · decide +kernel
  · decide +kernel
  · decide +kernel

end LedgerClient
