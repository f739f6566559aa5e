import LedgerClient.Organization.Standard
import LedgerClient.Proofs.Update.Change
import Mathlib.Tactic.ByContra
/-!
# What changes do to the members

A configuration is its outline, which is all but the members of the groups that can be changed, and
these members.  A change is about one of them.

* `Config.ext_member?`: the outline and the members determine the configuration.
* `ConfigChange.Applicable`: the group of the change is there, and the name is free or taken as it
  has to be.  `ConfigChange.Effect`: one member is other than it was.
* `ConfigChange.apply_ok_iff`: a change is applied exactly if it is applicable, and then has this
  effect.
* `membership_algebra`: undoing and exchanging changes.
-/

namespace LedgerClient

theorem Dict.get?_map {α β : Type} (f : α → β) (d : Dict α) (k : String) :
    (d.map f).get? k = (d.get? k).map f := by
  rw [get?, get?, map]
  dsimp only
  induction d.entries with
  | nil => rfl
  | cons e l ih =>
    rw [List.map_cons, lookupEntry, lookupEntry]
    split
    · rfl
    · exact ih

/-- A group whose members can be changed. -/
inductive MemberGroup where
  | application
  | consortium (name : String)
  deriving DecidableEq

/-! ## Outline and members -/

namespace Config

variable {c d : Config} {group : MemberGroup}

/-- The members of a group, if the group is there. -/
def members? (c : Config) : MemberGroup → Option (Dict Organization)
  | .application => c.channelGroup.application.map (·.organizations)
  | .consortium name => (c.channelGroup.consortiums.get? name).map (·.organizations)

def member? (c : Config) (group : MemberGroup) (name : String) : Option Organization :=
  (c.members? group).bind (·.get? name)

/-- The configuration with no members in the groups that can be changed. -/
def outline (c : Config) : Config :=
  { c with channelGroup := { c.channelGroup with
      application := c.channelGroup.application.map fun a => { a with organizations := .empty }
      consortiums := c.channelGroup.consortiums.map fun _ => ⟨.empty⟩ } }

/-- The outline tells which groups are there. -/
theorem isSome_members?_outline (c : Config) (group : MemberGroup) :
    (c.outline.members? group).isSome = (c.members? group).isSome := by
  cases group with
  | application =>
    change (Option.map _ (Option.map _ _)).isSome = (Option.map _ _).isSome
    rw [Option.isSome_map, Option.isSome_map, Option.isSome_map]
  | consortium name =>
    change (Option.map _ (Dict.get? (Dict.map _ _) _)).isSome = (Option.map _ _).isSome
    rw [Dict.get?_map, Option.isSome_map, Option.isSome_map, Option.isSome_map]

theorem isSome_members?_congr (h : c.outline = d.outline) (group : MemberGroup) :
    (c.members? group).isSome = (d.members? group).isSome := by
  rw [← isSome_members?_outline, h, isSome_members?_outline]

theorem members?_congr (h : c.outline = d.outline)
    (hmember : ∀ name, c.member? group name = d.member? group name) :
    c.members? group = d.members? group := by
  have hsome := isSome_members?_congr h group
  simp only [member?] at hmember
  cases hc : c.members? group with
  | none =>
    rw [hc] at hsome
    exact (Option.isNone_iff_eq_none.1 (Option.isSome_eq_false_iff.1 hsome.symm)).symm
  | some members =>
    rw [hc] at hsome hmember
    obtain ⟨members', hd⟩ := Option.isSome_iff_exists.1 hsome.symm
    rw [hd] at hmember ⊢
    exact congrArg some (Dict.ext_get? hmember)

/-- A configuration is determined by its outline and its members. -/
theorem ext_member? (h : c.outline = d.outline)
    (hmember : ∀ group name, c.member? group name = d.member? group name) : c = d := by
  have hmembers (group : MemberGroup) := members?_congr h (hmember group)
  obtain ⟨sequence, consortium, application, orderer, consortiums, capabilities, policies⟩ := c
  obtain ⟨sequence', consortium', application', orderer', consortiums', capabilities',
    policies'⟩ := d
  simp only [outline, Config.mk.injEq, ChannelGroup.mk.injEq] at h
  obtain ⟨rfl, rfl, happlication, rfl, -, rfl, rfl⟩ := h
  have hconsortiums : consortiums = consortiums' := Dict.ext_get? fun k => by
    have hk := hmembers (.consortium k)
    refine Option.map_injective (f := ConsortiumGroup.organizations) ?_ hk
    rintro ⟨_⟩ ⟨_⟩ heq
    exact congrArg ConsortiumGroup.mk heq
  have happlications : application = application' := by
    have hm := hmembers .application
    simp only [members?] at hm
    cases application with
    | none =>
      cases application' with
      | none => rfl
      | some a' => cases hm
    | some a =>
      cases application' with
      | none => cases hm
      | some a' =>
        obtain ⟨organizations, capabilities, policies⟩ := a
        simp only [Option.map_some, Option.some.injEq, ApplicationGroup.mk.injEq] at happlication hm
        obtain ⟨-, rfl, rfl⟩ := happlication
        rw [hm]
  rw [hconsortiums, happlications]

/-- The other configuration has those members in the group that `f` makes of them, and is the same
in all else. -/
def Regroups (c : Config) (group : MemberGroup)
    (f : Dict Organization → Except ClientError (Dict Organization)) (d : Config) : Prop :=
  d.outline = c.outline ∧ ∃ members members', c.members? group = some members ∧
    f members = .ok members' ∧
    ∀ other, d.members? other = if other = group then some members' else c.members? other

variable {f : Dict Organization → Except ClientError (Dict Organization)}
  {channelGroup : ChannelGroup} {name : String}

theorem regroups_of_updateApplication
    (h : c.channelGroup.updateApplication f = .ok channelGroup) :
    c.Regroups .application f { c with channelGroup } := by
  obtain ⟨application, members, happlication, hmembers, rfl⟩ :=
    ChannelGroup.updateApplication_ok_iff.1 h
  refine ⟨?_, application.organizations, members, ?_, hmembers, fun other => ?_⟩
  · simp only [outline, happlication, Option.map_some]
  · exact congrArg (Option.map ApplicationGroup.organizations) happlication
  · cases other with
    | application => rfl
    | consortium _ => rfl

theorem regroups_of_updateConsortium
    (h : c.channelGroup.updateConsortium name f = .ok channelGroup) :
    c.Regroups (.consortium name) f { c with channelGroup } := by
  obtain ⟨old, members, hold, hmembers, rfl⟩ := ChannelGroup.updateConsortium_ok_iff.1 h
  refine ⟨?_, old.organizations, members, ?_, hmembers, fun other => ?_⟩
  · have hmap : (c.channelGroup.consortiums.insert name ⟨members⟩).map
        (fun _ => (⟨.empty⟩ : ConsortiumGroup)) =
          c.channelGroup.consortiums.map fun _ => ⟨.empty⟩ := by
      refine Dict.ext_get? fun k => ?_
      rw [Dict.get?_map, Dict.get?_map, Dict.get?_insert]
      split
      · rename_i hk
        rw [hk, hold]
        rfl
      · rfl
    simp only [outline, hmap]
  · exact congrArg (Option.map ConsortiumGroup.organizations) hold
  · cases other with
    | application => rfl
    | consortium other =>
      simp only [members?, Dict.get?_insert, MemberGroup.consortium.injEq]
      split <;> rfl

end Config

/-! ## One change -/

namespace ConfigChange

variable {change other : ConfigChange} {config updated : Config} {group : MemberGroup}
  {organization : Organization} {members members' : Dict Organization}

/-- The change that adds an organization to a group. -/
def adding : MemberGroup → Organization → ConfigChange
  | .application, organization => .channelAdd organization
  | .consortium name, organization => .consortiumAdd name organization

/-- The change that takes an organization out of a group. -/
def removing : MemberGroup → String → ConfigChange
  | .application, name => .channelRemove name
  | .consortium consortium, name => .consortiumRemove consortium name

/-- The group that a change is about, and the name in it. -/
def target : ConfigChange → MemberGroup × String
  | channelAdd organization => (.application, organization.name)
  | channelRemove name => (.application, name)
  | consortiumAdd consortium organization => (.consortium consortium, organization.name)
  | consortiumRemove consortium name => (.consortium consortium, name)

/-- What is under the name after the change. -/
def outcome : ConfigChange → Option Organization
  | channelAdd organization => some organization
  | channelRemove _ => none
  | consortiumAdd _ organization => some organization
  | consortiumRemove _ _ => none

/-- What the change makes of the members of its group. -/
def edit : ConfigChange → Dict Organization → Except ClientError (Dict Organization)
  | channelAdd organization => (addMember · organization)
  | channelRemove name => (removeMember · name)
  | consortiumAdd _ organization => (addMember · organization)
  | consortiumRemove _ name => (removeMember · name)

@[simp] theorem target_adding (group : MemberGroup) (organization : Organization) :
    (adding group organization).target = (group, organization.name) := by
  cases group <;> rfl

@[simp] theorem target_removing (group : MemberGroup) (name : String) :
    (removing group name).target = (group, name) := by
  cases group <;> rfl

@[simp] theorem outcome_adding (group : MemberGroup) (organization : Organization) :
    (adding group organization).outcome = some organization := by
  cases group <;> rfl

@[simp] theorem outcome_removing (group : MemberGroup) (name : String) :
    (removing group name).outcome = none := by
  cases group <;> rfl

theorem get?_of_addMember (h : addMember members organization = .ok members') (k : String) :
    members'.get? k = if k = organization.name then some organization else members.get? k := by
  obtain ⟨-, rfl⟩ := addMember_ok_iff.1 h
  exact Dict.get?_insert _ _ _ _

theorem get?_of_removeMember {name : String} (h : removeMember members name = .ok members')
    (k : String) : members'.get? k = if k = name then none else members.get? k := by
  obtain ⟨-, rfl⟩ := removeMember_ok_iff.1 h
  exact Dict.get?_erase _ _ _

theorem get?_of_edit (h : change.edit members = .ok members') (k : String) :
    members'.get? k = if k = change.target.2 then change.outcome else members.get? k := by
  cases change with
  | channelAdd organization => exact get?_of_addMember h k
  | channelRemove name => exact get?_of_removeMember h k
  | consortiumAdd consortium organization => exact get?_of_addMember h k
  | consortiumRemove consortium name => exact get?_of_removeMember h k

/-- An organization is added where its name is free, and removed where it is taken. -/
theorem exists_edit_iff : (∃ members', change.edit members = .ok members') ↔
    (members.get? change.target.2 = none ↔ change.outcome ≠ none) := by
  have hadd (organization : Organization) :
      (∃ members', addMember members organization = .ok members') ↔
        (members.get? organization.name = none ↔ some organization ≠ none) := by
    simp [addMember_ok_iff]
  have hremove (name : String) : (∃ members', removeMember members name = .ok members') ↔
      (members.get? name = none ↔ (none : Option Organization) ≠ none) := by
    simp [removeMember_ok_iff]
  cases change with
  | channelAdd organization => exact hadd organization
  | channelRemove name => exact hremove name
  | consortiumAdd consortium organization => exact hadd organization
  | consortiumRemove consortium name => exact hremove name

/-- A change that is applied regroups its own group. -/
theorem regroups_of_apply (h : change.apply config = .ok updated) :
    config.Regroups change.target.1 change.edit updated := by
  obtain ⟨channelGroup, hgroup, h⟩ := except_bind_ok.1 h
  cases h
  cases change with
  | channelAdd organization => exact Config.regroups_of_updateApplication hgroup
  | channelRemove name => exact Config.regroups_of_updateApplication hgroup
  | consortiumAdd consortium organization => exact Config.regroups_of_updateConsortium hgroup
  | consortiumRemove consortium name => exact Config.regroups_of_updateConsortium hgroup

theorem exists_apply_of_edit (hmembers : config.members? change.target.1 = some members)
    (hedit : change.edit members = .ok members') :
    ∃ updated, change.apply config = .ok updated := by
  have happlication {f : Dict Organization → Except ClientError (Dict Organization)}
      (hgroup : config.members? .application = some members) (hf : f members = .ok members') :
      ∃ channelGroup, config.channelGroup.updateApplication f = .ok channelGroup := by
    obtain ⟨application, hsome, rfl⟩ := Option.map_eq_some_iff.1 hgroup
    exact ⟨_, ChannelGroup.updateApplication_ok_iff.2 ⟨application, members', hsome, hf, rfl⟩⟩
  have hconsortium {f : Dict Organization → Except ClientError (Dict Organization)} {name : String}
      (hgroup : config.members? (.consortium name) = some members) (hf : f members = .ok members') :
      ∃ channelGroup, config.channelGroup.updateConsortium name f = .ok channelGroup := by
    obtain ⟨old, hsome, rfl⟩ := Option.map_eq_some_iff.1 hgroup
    exact ⟨_, ChannelGroup.updateConsortium_ok_iff.2 ⟨old, members', hsome, hf, rfl⟩⟩
  have happly : ∃ channelGroup, change.applyTo config.channelGroup = .ok channelGroup := by
    cases change with
    | channelAdd organization => exact happlication hmembers hedit
    | channelRemove name => exact happlication hmembers hedit
    | consortiumAdd consortium organization => exact hconsortium hmembers hedit
    | consortiumRemove consortium name => exact hconsortium hmembers hedit
  obtain ⟨channelGroup, hgroup⟩ := happly
  exact ⟨_, except_bind_ok.2 ⟨channelGroup, hgroup, rfl⟩⟩

/-- The group of the change is there, and its name is free if something is to be put there, and
taken otherwise. -/
structure Applicable (change : ConfigChange) (config : Config) : Prop where
  group : (config.members? change.target.1).isSome
  name : config.member? change.target.1 change.target.2 = none ↔ change.outcome ≠ none

/-- The target is what the change makes of it, and all else is as it was. -/
structure Effect (change : ConfigChange) (config updated : Config) : Prop where
  outline : updated.outline = config.outline
  member : ∀ group name, updated.member? group name =
    if (group, name) = change.target then change.outcome else config.member? group name

theorem Effect.unique {updated' : Config} (h : change.Effect config updated)
    (h' : change.Effect config updated') : updated = updated' :=
  Config.ext_member? (h.outline.trans h'.outline.symm) fun group name =>
    (h.member group name).trans (h'.member group name).symm

theorem exists_apply_iff : (∃ updated, change.apply config = .ok updated) ↔
    change.Applicable config := by
  constructor
  · rintro ⟨updated, h⟩
    obtain ⟨-, members, members', hmembers, hedit, -⟩ := regroups_of_apply h
    refine ⟨Option.isSome_iff_exists.2 ⟨members, hmembers⟩, ?_⟩
    rw [Config.member?, hmembers]
    exact exists_edit_iff.1 ⟨members', hedit⟩
  · rintro ⟨hgroup, hname⟩
    obtain ⟨members, hmembers⟩ := Option.isSome_iff_exists.1 hgroup
    rw [Config.member?, hmembers] at hname
    obtain ⟨members', hedit⟩ := exists_edit_iff.2 hname
    exact exists_apply_of_edit hmembers hedit

theorem effect_of_apply (h : change.apply config = .ok updated) :
    change.Effect config updated := by
  obtain ⟨houtline, members, members', hmembers, hedit, hother⟩ := regroups_of_apply h
  refine ⟨houtline, fun group name => ?_⟩
  simp only [Config.member?, hother, Prod.ext_iff]
  by_cases hgroup : group = change.target.1
  · rw [hgroup, if_pos rfl, hmembers, Option.bind_some, Option.bind_some, get?_of_edit hedit]
    simp only [true_and]
  · rw [if_neg hgroup, if_neg fun h => hgroup h.1]

/-- What a change makes of a configuration is known from its effect. -/
theorem apply_ok_iff : change.apply config = .ok updated ↔
    change.Applicable config ∧ change.Effect config updated := by
  constructor
  · intro h
    exact ⟨exists_apply_iff.1 ⟨updated, h⟩, effect_of_apply h⟩
  · rintro ⟨happlicable, heffect⟩
    obtain ⟨updated', h⟩ := exists_apply_iff.2 happlicable
    rw [(effect_of_apply h).unique heffect] at h
    exact h

/-! ## Two changes -/

/-- The target is all that differs. -/
theorem member?_ne_iff (h : change.apply config = .ok updated) (group : MemberGroup)
    (name : String) :
    updated.member? group name ≠ config.member? group name ↔ (group, name) = change.target := by
  obtain ⟨happlicable, heffect⟩ := apply_ok_iff.1 h
  rw [heffect.member]
  split
  · rename_i htarget
    have hname := happlicable.name
    rw [← htarget] at hname
    refine iff_of_true (fun hsame => ?_) htarget
    rw [← hsame] at hname
    exact iff_not_self hname
  · rename_i htarget
    exact iff_of_false (fun hne => hne rfl) htarget

/-- A change of the same target that puts back what was there leads back. -/
theorem apply_back (h : change.apply config = .ok updated) (htarget : other.target = change.target)
    (houtcome : other.outcome = config.member? change.target.1 change.target.2) :
    other.apply updated = .ok config := by
  obtain ⟨happlicable, heffect⟩ := apply_ok_iff.1 h
  refine apply_ok_iff.2 ⟨⟨?_, ?_⟩, heffect.outline.symm, fun group name => ?_⟩
  · rw [htarget, Config.isSome_members?_congr heffect.outline]
    exact happlicable.group
  · rw [htarget, heffect.member, if_pos rfl, houtcome, Ne, happlicable.name, Ne, Decidable.not_not]
  · rw [heffect.member, htarget, houtcome]
    split
    · rename_i hsame
      rw [← hsame]
    · rfl

/-- A change says nothing about what another change of another target needs. -/
theorem applicable_iff_of_ne (h : change.apply config = .ok updated)
    (hne : other.target ≠ change.target) :
    other.Applicable updated ↔ other.Applicable config := by
  have heffect := effect_of_apply h
  have hmember := heffect.member other.target.1 other.target.2
  rw [if_neg hne] at hmember
  have hgroup := Config.isSome_members?_congr heffect.outline other.target.1
  constructor
  · rintro ⟨hsome, hname⟩
    exact ⟨hgroup ▸ hsome, hmember ▸ hname⟩
  · rintro ⟨hsome, hname⟩
    exact ⟨hgroup.symm ▸ hsome, hmember.symm ▸ hname⟩

/-- Changes of different targets can be applied the other way round. -/
theorem exchange {first second : ConfigChange} (hne : first.target ≠ second.target)
    (h : (first.apply config >>= second.apply) = .ok updated) :
    (second.apply config >>= first.apply) = .ok updated := by
  obtain ⟨between, hfirst, hsecond⟩ := except_bind_ok.1 h
  have happlicable := (applicable_iff_of_ne hfirst hne.symm).1 (exists_apply_iff.1 ⟨_, hsecond⟩)
  obtain ⟨between', hsecond'⟩ := exists_apply_iff.2 happlicable
  refine except_bind_ok.2 ⟨between', hsecond', apply_ok_iff.2 ⟨?_, ?_, fun group name => ?_⟩⟩
  · exact (applicable_iff_of_ne hsecond' hne).2 (exists_apply_iff.1 ⟨_, hfirst⟩)
  · rw [(effect_of_apply hsecond).outline, (effect_of_apply hfirst).outline,
      (effect_of_apply hsecond').outline]
  · rw [(effect_of_apply hsecond).member, (effect_of_apply hfirst).member,
      (effect_of_apply hsecond').member]
    by_cases hfirst : (group, name) = first.target
    · rw [hfirst, if_neg hne, if_pos rfl, if_pos rfl]
    · rw [if_neg hfirst, if_neg hfirst]

/-- A member that was taken out can be put back exactly if it was under its own name. -/
theorem putBack_iff {name : String} (hmember : config.member? group name = some organization)
    (h : (removing group name).apply config = .ok updated) :
    (adding group organization).apply updated = .ok config ↔ organization.name = name := by
  constructor
  · intro hback
    by_contra hne
    have hthere := (effect_of_apply hback).member group name
    have hgone := (effect_of_apply h).member group name
    rw [target_removing, if_pos rfl, outcome_removing] at hgone
    rw [target_adding, if_neg fun heq => hne (Prod.mk.inj heq).2.symm, hgone, hmember] at hthere
    cases hthere
  · rintro rfl
    refine apply_back h ?_ ?_
    · rw [target_adding, target_removing]
    · rw [outcome_adding, target_removing]
      exact hmember.symm

/-- A change can be applied exactly if its group is there and its name is free or taken as it has to
be, and then its target is all that differs.  So an organization that was added can be removed
again, with nothing left of the two changes; one that was removed can be added again in the same way
exactly if it was stored under its own name; and changes of different targets can be applied in
either order, with the same result. -/
theorem membership_algebra (config : Config) :
    (∀ change : ConfigChange,
      ((∃ updated, change.apply config = .ok updated) ↔ change.Applicable config) ∧
      ∀ updated, change.apply config = .ok updated → change.Effect config updated ∧
        ∀ group name, updated.member? group name ≠ config.member? group name ↔
          (group, name) = change.target) ∧
    (∀ group organization updated, (adding group organization).apply config = .ok updated →
      (removing group organization.name).apply updated = .ok config) ∧
    (∀ group name organization updated, config.member? group name = some organization →
      (removing group name).apply config = .ok updated →
      ((adding group organization).apply updated = .ok config ↔ organization.name = name)) ∧
    ∀ first second : ConfigChange, first.target ≠ second.target → ∀ updated,
      ((first.apply config >>= second.apply) = .ok updated ↔
        (second.apply config >>= first.apply) = .ok updated) := by
  refine ⟨fun change => ⟨exists_apply_iff, fun updated h => ?_⟩,
    fun group organization updated h => ?_,
    fun group name organization updated hmember h => putBack_iff hmember h,
    fun first second hne updated => ⟨exchange hne, exchange hne.symm⟩⟩
  · exact ⟨effect_of_apply h, member?_ne_iff h⟩
  · have happlicable := exists_apply_iff.1 ⟨updated, h⟩
    refine apply_back h ?_ ?_
    · rw [target_adding, target_removing]
    · rw [outcome_removing]
      refine (happlicable.name.2 ?_).symm
      rw [outcome_adding]
      exact Option.some_ne_none organization

/-- A configuration with a member of the channel, and with a consortium of two members, of which one
is stored under a former name. -/
def renamedConfig : Config where
  sequence := 7
  channelGroup := { ChannelGroup.empty with
    application := some ⟨.ofList [("Org1", .standard .peer "Org1" "Org1MSP")], ["V2_0"], .empty⟩
    consortiums := .ofList [("Alpha", ⟨.ofList [("Org4", .standard .peer "Org4" "Org4MSP"),
      ("Former", .standard .peer "Org5" "Org5MSP")]⟩)] }

/-- An organization joins and leaves again, a renamed one leaves and cannot come back to where it
was, and the members of two groups change in either order. -/
theorem membership_algebra_renamed :
    let alpha := MemberGroup.consortium "Alpha"
    let joins := adding alpha (.standard .peer "Org6" "Org6MSP")
    let leaves := removing .application "Org1"
    let renamed := Organization.standard .peer "Org5" "Org5MSP"
    joins.Applicable renamedConfig ∧ leaves.Applicable renamedConfig ∧
      joins.target ≠ leaves.target ∧ renamedConfig.member? alpha "Former" = some renamed ∧
      (∃ updated, joins.apply renamedConfig = .ok updated ∧
        (removing alpha "Org6").apply updated = .ok renamedConfig) ∧
      (∃ updated, (removing alpha "Former").apply renamedConfig = .ok updated ∧
        (adding alpha renamed).apply updated ≠ .ok renamedConfig) ∧
      ∃ updated, (joins.apply renamedConfig >>= leaves.apply) = .ok updated ∧
        (leaves.apply renamedConfig >>= joins.apply) = .ok updated := by
  intro alpha joins leaves renamed
  obtain ⟨hchange, hundo, hback, hexchange⟩ := membership_algebra renamedConfig
  have hjoins : joins.Applicable renamedConfig := ⟨by decide, by decide⟩
  have hleaves : leaves.Applicable renamedConfig := ⟨by decide, by decide⟩
  have hformer : (removing alpha "Former").Applicable renamedConfig := ⟨by decide, by decide⟩
  have hne : joins.target ≠ leaves.target := by decide
  have hmember : renamedConfig.member? alpha "Former" = some renamed := by decide
  refine ⟨hjoins, hleaves, hne, hmember, ?_, ?_, ?_⟩
  · obtain ⟨updated, h⟩ := (hchange joins).1.2 hjoins
    exact ⟨updated, h, hundo _ _ _ h⟩
  · obtain ⟨updated, h⟩ := (hchange (removing alpha "Former")).1.2 hformer
    exact ⟨updated, h, fun h' => absurd ((hback _ _ _ _ hmember h).1 h') (by decide)⟩
  · obtain ⟨between, h⟩ := (hchange joins).1.2 hjoins
    have hleaves' := (applicable_iff_of_ne h hne.symm).2 hleaves
    obtain ⟨updated, h'⟩ := exists_apply_iff.2 hleaves'
    have hboth := except_bind_ok.2 ⟨between, h, h'⟩
    exact ⟨updated, hboth, (hexchange joins leaves hne updated).1 hboth⟩

end ConfigChange

end LedgerClient
