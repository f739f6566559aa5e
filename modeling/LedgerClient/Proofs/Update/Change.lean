import LedgerClient.Proofs.Transaction.Assembly
import LedgerClient.Update.Change
import LedgerClient.Update.Delta
/-!
# Changes make a difference

A membership change that can be applied leaves a configuration that differs from the one before, so
there is always a difference to propose.

* `addMember_ok_iff`, `removeMember_ok_iff`, `ChannelGroup.updateApplication_ok_iff`,
  `ChannelGroup.updateConsortium_ok_iff`: what is made of the members of a group.
* `ConfigChange.apply_ne`: what a change makes of a configuration is another channel group.
* `deltaOf`, `computeDelta_eq`: the difference of two configurations with different groups.
* `exists_computeDelta`: the difference that a change makes can be computed.
-/

namespace LedgerClient

variable {members members' : Dict Organization} {group group' : ChannelGroup}
  {config updated : Config} {change : ConfigChange}

theorem addMember_ok_iff {organization : Organization} :
    addMember members organization = .ok members' ↔
      members.get? organization.name = none ∧
        members' = members.insert organization.name organization := by
  rw [addMember, Dict.contains]
  cases members.get? organization.name with
  | none =>
    constructor
    · intro h
      cases h
      exact ⟨rfl, rfl⟩
    · rintro ⟨-, rfl⟩
      rfl
  | some found => exact ⟨fun h => (nomatch h), fun h => (nomatch h.1)⟩

theorem removeMember_ok_iff {name : String} :
    removeMember members name = .ok members' ↔
      members.get? name ≠ none ∧ members' = members.erase name := by
  rw [removeMember, Dict.contains]
  cases members.get? name with
  | none => exact ⟨fun h => (nomatch h), fun h => absurd rfl h.1⟩
  | some found =>
    constructor
    · intro h
      cases h
      exact ⟨Option.some_ne_none _, rfl⟩
    · rintro ⟨-, rfl⟩
      rfl

theorem addMember_ne {organization : Organization}
    (h : addMember members organization = .ok members') : members' ≠ members := by
  obtain ⟨habsent, rfl⟩ := addMember_ok_iff.1 h
  intro heq
  have hget := Dict.get?_insert members organization.name organization.name organization
  rw [heq, if_pos rfl, habsent] at hget
  cases hget

theorem removeMember_ne {name : String} (h : removeMember members name = .ok members') :
    members' ≠ members := by
  obtain ⟨hpresent, rfl⟩ := removeMember_ok_iff.1 h
  intro heq
  have hget := Dict.get?_erase members name name
  rw [heq, if_pos rfl] at hget
  exact hpresent hget

namespace ChannelGroup

variable {f : Dict Organization → Except ClientError (Dict Organization)} {consortium : String}

theorem updateApplication_ok_iff : group.updateApplication f = .ok group' ↔
    ∃ application members, group.application = some application ∧
      f application.organizations = .ok members ∧
      group' =
        { group with application := some { application with organizations := members } } := by
  rw [updateApplication]
  cases group.application with
  | none => exact ⟨fun h => (nomatch h), fun ⟨_, _, h, _⟩ => (nomatch h)⟩
  | some application =>
    constructor
    · intro h
      obtain ⟨members, hmembers, h⟩ := except_bind_ok.1 h
      cases h
      exact ⟨application, members, rfl, hmembers, rfl⟩
    · rintro ⟨_, members, hsome, hmembers, rfl⟩
      cases hsome
      exact except_bind_ok.2 ⟨members, hmembers, rfl⟩

theorem updateConsortium_ok_iff : group.updateConsortium consortium f = .ok group' ↔
    ∃ old members, group.consortiums.get? consortium = some old ∧
      f old.organizations = .ok members ∧
      group' = { group with consortiums := group.consortiums.insert consortium ⟨members⟩ } := by
  rw [updateConsortium]
  cases group.consortiums.get? consortium with
  | none => exact ⟨fun h => (nomatch h), fun ⟨_, _, h, _⟩ => (nomatch h)⟩
  | some old =>
    constructor
    · intro h
      obtain ⟨members, hmembers, h⟩ := except_bind_ok.1 h
      cases h
      exact ⟨old, members, rfl, hmembers, rfl⟩
    · rintro ⟨_, members, hsome, hmembers, rfl⟩
      cases hsome
      exact except_bind_ok.2 ⟨members, hmembers, rfl⟩

theorem updateApplication_ne (hf : ∀ members members', f members = .ok members' →
    members' ≠ members) (h : group.updateApplication f = .ok group') : group' ≠ group := by
  obtain ⟨application, members, happlication, hmembers, rfl⟩ := updateApplication_ok_iff.1 h
  intro heq
  have hsame := congrArg ChannelGroup.application heq
  rw [happlication, Option.some.injEq] at hsame
  exact hf _ _ hmembers (congrArg ApplicationGroup.organizations hsame)

theorem updateConsortium_ne (hf : ∀ members members', f members = .ok members' →
    members' ≠ members) (h : group.updateConsortium consortium f = .ok group') :
    group' ≠ group := by
  obtain ⟨old, members, hold, hmembers, rfl⟩ := updateConsortium_ok_iff.1 h
  intro heq
  have hget := Dict.get?_insert group.consortiums consortium consortium ⟨members⟩
  rw [show group.consortiums.insert consortium ⟨members⟩ = group.consortiums from
    congrArg ChannelGroup.consortiums heq, hold, if_pos rfl, Option.some.injEq] at hget
  exact hf _ _ hmembers (congrArg ConsortiumGroup.organizations hget).symm

end ChannelGroup

theorem ConfigChange.applyTo_ne (h : change.applyTo group = .ok group') : group' ≠ group := by
  cases change with
  | channelAdd organization =>
    exact ChannelGroup.updateApplication_ne (fun _ _ => addMember_ne) h
  | channelRemove name => exact ChannelGroup.updateApplication_ne (fun _ _ => removeMember_ne) h
  | consortiumAdd consortium organization =>
    exact ChannelGroup.updateConsortium_ne (fun _ _ => addMember_ne) h
  | consortiumRemove consortium name =>
    exact ChannelGroup.updateConsortium_ne (fun _ _ => removeMember_ne) h

theorem ConfigChange.apply_ne (h : change.apply config = .ok updated) :
    updated.channelGroup ≠ config.channelGroup := by
  obtain ⟨group, hgroup, h⟩ := except_bind_ok.1 h
  cases h
  exact ConfigChange.applyTo_ne hgroup

/-! ## Differences -/

/-- The difference of two configurations whose groups differ. -/
def deltaOf (channelId : String) (original updated : Config) : ConfigUpdate :=
  let before := original.channelGroup
  let after := updated.channelGroup
  let sets := changedConsortiums before.consortiums after.consortiums
  { channelId := channelId
    readSequence := original.sequence
    readSet := before.differing after sets.1
    writeSet := after.differing before sets.2 }

theorem computeDelta_eq (channelId : String) (original updated : Config) :
    computeDelta channelId original updated =
      if original.channelGroup = updated.channelGroup then
        .error (.configDelta "no differences detected between original and updated config")
      else .ok (deltaOf channelId original updated) := rfl

theorem computeDelta_of_ne {original : Config} (channelId : String)
    (h : updated.channelGroup ≠ original.channelGroup) :
    computeDelta channelId original updated = .ok (deltaOf channelId original updated) := by
  rw [computeDelta_eq, if_neg h.symm]

/-- The difference that a change makes. -/
theorem computeDelta_of_apply (h : change.apply config = .ok updated) (channelId : String) :
    computeDelta channelId config updated = .ok (deltaOf channelId config updated) :=
  computeDelta_of_ne channelId (ConfigChange.apply_ne h)

/-- What a change makes of a configuration has a difference to it. -/
theorem exists_computeDelta (h : change.apply config = .ok updated) (channelId : String) :
    ∃ delta, computeDelta channelId config updated = .ok delta :=
  ⟨_, computeDelta_of_apply h channelId⟩

end LedgerClient
