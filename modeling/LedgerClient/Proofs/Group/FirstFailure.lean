import LedgerClient.Proofs.Runs
/-!
# The first failure wins

`FirstFailureWins` says what a group of members makes of their endings under a
deadline: success when all have succeeded in time, or else the failure of a member
that failed earliest, or else the expiry.  `firstFailureWins_of_race`: a race of
tasks does this, whatever the order in which the tasks end.  `failure_of_race`: a race
that fails has the failure of a member or has expired.
-/

namespace LedgerClient

variable {α ι : Type}

/-- What a result says about the endings of the members of a group.  `ends m t r`: member `m`
ends at instant `t` with `r`. -/
structure FirstFailureWins (members : List ι) (ends : ι → Nat → Except ClientError Unit → Prop)
    (deadline : Nat) (expired : ClientError) (result : Option (Except ClientError Unit)) :
    Prop where
  /-- The group succeeds exactly when every member has succeeded before the deadline. -/
  succeeds_iff : result = some (.ok ()) ↔ ∀ m ∈ members, ∃ t < deadline, ends m t (.ok ())
  /-- If a member has failed before the deadline, the result is the failure of a member that no
  other member has failed before. -/
  fails : (∃ m ∈ members, ∃ t < deadline, ∃ e, ends m t (.error e)) →
    ∃ m ∈ members, ∃ t < deadline, ∃ e, ends m t (.error e) ∧
      (∀ m' ∈ members, ∀ t' e', ends m' t' (.error e') → t ≤ t') ∧ result = some (.error e)
  /-- If no member has failed before the deadline and some have not succeeded, the group
  expires. -/
  expires : (∀ m ∈ members, ∀ t < deadline, ∀ e, ¬ends m t (.error e)) →
    (¬∀ m ∈ members, ∃ t < deadline, ends m t (.ok ())) → result = some (.error expired)

/-- What a group says of its members it says of other names of the same members. -/
theorem FirstFailureWins.rename {κ : Type} {members : List ι} {others : List κ} {f : κ → ι}
    {ends : ι → Nat → Except ClientError Unit → Prop}
    {ends' : κ → Nat → Except ClientError Unit → Prop} {deadline : Nat} {expired : ClientError}
    {result : Option (Except ClientError Unit)}
    (h : FirstFailureWins members ends deadline expired result)
    (hperm : members.Perm (others.map f))
    (hends : ∀ k ∈ others, ∀ t r, ends (f k) t r ↔ ends' k t r) :
    FirstFailureWins others ends' deadline expired result := by
  have hforall : ∀ P : ι → Prop, (∀ m ∈ members, P m) ↔ ∀ k ∈ others, P (f k) := fun P =>
    (forall_congr' fun _ => imp_congr_left hperm.mem_iff).trans List.forall_mem_map
  have hmem : ∀ k ∈ others, f k ∈ members := fun k hk =>
    hperm.mem_iff.2 (List.mem_map_of_mem hk)
  have hsucc : (∀ m ∈ members, ∃ t < deadline, ends m t (.ok ())) ↔
      ∀ k ∈ others, ∃ t < deadline, ends' k t (.ok ()) := by
    rw [hforall]
    exact forall₂_congr fun k hk => exists_congr fun t => and_congr_right fun _ => hends k hk t _
  refine ⟨h.succeeds_iff.trans hsucc, ?_, ?_⟩
  · rintro ⟨k, hk, t, ht, e, hke⟩
    obtain ⟨m, hm, t', ht', e', hme, hle, hresult⟩ :=
      h.fails ⟨f k, hmem k hk, t, ht, e, (hends k hk t _).2 hke⟩
    obtain ⟨k', hk', rfl⟩ := List.mem_map.1 (hperm.mem_iff.1 hm)
    refine ⟨k', hk', t', ht', e', (hends k' hk' t' _).1 hme, fun j hj t'' e'' hje => ?_, hresult⟩
    exact (hforall _).1 hle j hj t'' e'' ((hends j hj t'' _).2 hje)
  · intro hnofail hnot
    refine h.expires ((hforall _).2 fun k hk t ht e hke => ?_) fun hall => hnot (hsucc.1 hall)
    exact hnofail k hk t ht e ((hends k hk t _).1 hke)

theorem map_unit_eq_ok {r : Except ClientError α} :
    r.map (fun _ => ()) = .ok () ↔ ∃ a, r = .ok a := by
  cases r with
  | ok a => exact ⟨fun _ => ⟨a, rfl⟩, fun _ => rfl⟩
  | error e => exact ⟨fun h => (nomatch h), fun ⟨_, h⟩ => (nomatch h)⟩

theorem map_unit_eq_error {r : Except ClientError α} {e : ClientError} :
    r.map (fun _ => ()) = .error e ↔ r = .error e := by
  cases r with
  | ok a => exact ⟨fun h => (nomatch h), fun h => (nomatch h)⟩
  | error e' =>
    constructor
    · intro h
      cases h
      rfl
    · intro h
      cases h
      rfl

section Race

variable {members : List ι} {task : ι → Task α} {ends : ι → Nat → Except ClientError Unit → Prop}
  {deadline : Nat}

theorem allSucceed_iff_ends
    (h : ∀ m ∈ members, ∀ t r, ends m t r ↔
      ∃ r', (task m).ending = some (t, r') ∧ r'.map (fun _ => ()) = r) :
    Task.AllSucceed deadline (members.map task) ↔
      ∀ m ∈ members, ∃ t < deadline, ends m t (.ok ()) := by
  rw [Task.AllSucceed, List.forall_mem_map]
  refine forall₂_congr fun m hm => ?_
  constructor
  · rintro ⟨t, a, he, ht⟩
    exact ⟨t, ht, (h m hm t _).2 ⟨_, he, rfl⟩⟩
  · rintro ⟨t, ht, he⟩
    obtain ⟨r', he, hr⟩ := (h m hm t _).1 he
    obtain ⟨a, rfl⟩ := map_unit_eq_ok.1 hr
    exact ⟨t, a, he, ht⟩

theorem failsAt_iff_ends
    (h : ∀ m ∈ members, ∀ t r, ends m t r ↔
      ∃ r', (task m).ending = some (t, r') ∧ r'.map (fun _ => ()) = r) {t : Nat}
    {e : ClientError} :
    Task.FailsAt deadline (members.map task) t e ↔
      ∃ m ∈ members, t < deadline ∧ ends m t (.error e) := by
  rw [Task.FailsAt]
  constructor
  · rintro ⟨_, hm, he, ht⟩
    obtain ⟨m, hmem, rfl⟩ := List.mem_map.1 hm
    exact ⟨m, hmem, ht, (h m hmem t _).2 ⟨_, he, rfl⟩⟩
  · rintro ⟨m, hm, ht, he⟩
    obtain ⟨r', he, hr⟩ := (h m hm t _).1 he
    rw [map_unit_eq_error.1 hr] at he
    exact ⟨_, List.mem_map_of_mem hm, he, ht⟩

theorem firstFailureWins_of_race {fan : Fan α} {p : Progress}
    (h : ∀ m ∈ members, ∀ t r, ends m t r ↔
      ∃ r', (task m).ending = some (t, r') ∧ r'.map (fun _ => ()) = r)
    (hgroup : fan.group = Task.race p.clock fan.deadline (members.map task))
    (hreach : p.Reaches fan.deadline) :
    FirstFailureWins members ends fan.deadline fan.expired
      ((Client.awaitFan fan p).map fun _ => ()).result? := by
  have hall : Task.AllSucceed fan.deadline (members.map task) ↔ _ := allSucceed_iff_ends h
  have hfail : ∀ t e, Task.FailsAt fan.deadline (members.map task) t e ↔ _ :=
    fun t e => failsAt_iff_ends h
  rw [Client.awaitFan_apply]
  -- The three ways in which a race ends are those of the three fields.
  cases he : fan.group.ending with
  | none =>
    rw [hgroup, Task.race_ending_expired_iff, hall] at he
    obtain ⟨hnofail, hnot⟩ := he
    simp only [if_pos hreach]
    refine ⟨⟨fun h => (nomatch h), fun h => absurd h hnot⟩, ?_, fun _ _ => rfl⟩
    rintro ⟨m, hm, t, ht, e, hme⟩
    exact absurd ((hfail t e).2 ⟨m, hm, ht, hme⟩) (hnofail t e)
  | some ending =>
    obtain ⟨instant, failure⟩ := ending
    cases failure with
    | none =>
      have hsucc := (Task.race_ending_success_iff.1 (hgroup ▸ he)).1
      have hnofail := (Task.allSucceed_iff.1 hsucc).2
      rw [hall] at hsucc
      refine ⟨⟨fun _ => hsucc, fun _ => rfl⟩, ?_, fun _ hnot => absurd hsucc hnot⟩
      rintro ⟨m, hm, t, ht, e, hme⟩
      exact absurd ((hfail t e).2 ⟨m, hm, ht, hme⟩) (hnofail t e)
    | some e =>
      obtain ⟨hfirst, hle⟩ := Task.race_ending_failure (hgroup ▸ he)
      have hnot : ¬∀ m ∈ members, ∃ t < fan.deadline, ends m t (.ok ()) := by
        rw [← hall]
        exact fun hsucc => (Task.allSucceed_iff.1 hsucc).2 _ _ hfirst
      obtain ⟨m, hm, ht, hme⟩ := (hfail _ _).1 hfirst
      refine ⟨⟨fun h => (nomatch h), fun h => absurd h hnot⟩, fun _ => ?_, ?_⟩
      · refine ⟨m, hm, instant, ht, e, hme, fun m' hm' t' e' hme' => ?_, rfl⟩
        rcases Nat.lt_or_ge t' fan.deadline with ht' | ht'
        · exact hle t' e' ((hfail t' e').2 ⟨m', hm', ht', hme'⟩)
        · exact ht.le.trans ht'
      · intro hnofail
        exact absurd hme (hnofail m hm instant ht e)

/-- A race of tasks that fails has the failure of a task or else has expired. -/
theorem failure_of_race {fan : Fan α} {p q : Progress} {e : ClientError}
    (h : ∀ m ∈ members, ∀ t r, ends m t r ↔
      ∃ r', (task m).ending = some (t, r') ∧ r'.map (fun _ => ()) = r)
    (hgroup : fan.group = Task.race p.clock (p.before fan.deadline) (members.map task))
    (hrun : Client.awaitFan fan p = .done (.error e) q) :
    (∃ m ∈ members, ∃ t < fan.deadline, ends m t (.error e)) ∨
      (e = fan.expired ∧ (∀ m ∈ members, ∀ t < fan.deadline, ∀ e', ¬ends m t (.error e')) ∧
        ¬∀ m ∈ members, ∃ t < fan.deadline, ends m t (.ok ())) := by
  rcases Client.awaitFan_done_error.1 hrun with ⟨instant, hend, -⟩ | ⟨hend, hreach, hexpired, -⟩
  · rw [hgroup] at hend
    obtain ⟨m, hm, ht, hfails⟩ :=
      (failsAt_iff_ends h).1 (Task.race_ending_failure hend).1
    exact .inl ⟨m, hm, instant, ht.trans_le (Progress.before_le _ _), hfails⟩
  · rw [hgroup, show p.before fan.deadline = fan.deadline from hreach,
      Task.race_ending_expired_iff, allSucceed_iff_ends h] at hend
    refine .inr ⟨hexpired, fun m hm t ht e' hfails => ?_, hend.2⟩
    exact hend.1 t e' ((failsAt_iff_ends h).2 ⟨m, hm, ht, hfails⟩)

end Race

end LedgerClient
