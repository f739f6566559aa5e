import LedgerClient.Proofs.Update.Delta
import LedgerClient.Proofs.Update.Workflow
/-!
# Proposed changes, forwards and backwards

The difference that a membership change makes leads from the old configuration to the new one and
back.

* `ChannelGroup.overlay`: a group with the parts that a set of a difference holds.
* `ChannelGroup.SameParts`: two groups that have the same parts.  `ConfigChange.apply_sameParts`: a
  membership change leaves all parts in place.
* `overlay_writeSet`, `overlay_readSet`: between groups with the same parts the difference leads
  forwards and backwards.
* `ConfigChange.apply_error`, `ConfigChange.apply_error_ne`: why a change cannot be applied, which is
  never that it makes no difference.
* `propose_reversible`: a change is proposed exactly if it can be applied, with a difference that
  leads forwards and backwards.
-/

namespace LedgerClient

/-! ## Overlays -/

/-- `new`, or `old` where `new` is nothing. -/
def replacing {α : Type} [DecidableEq α] (nothing old new : α) : α :=
  if new = nothing then old else new

/-- The entries of the second dictionary in the place of those of the first one. -/
def Dict.overlay {α : Type} (d e : Dict α) : Dict α :=
  e.entries.foldl (fun d entry => d.insert entry.1 entry.2) d

theorem Dict.get?_overlay {α : Type} (d e : Dict α) (k : String) :
    (d.overlay e).get? k = (e.get? k).or (d.get? k) := by
  have hfold := Dict.foldl_entries_at (fun d : Dict α => d.get? k) (fun v _ => some v) (k := k)
    (fun d v => (d.get?_insert k k v).trans (if_pos rfl))
    (fun d entry hne => (d.get?_insert entry.1 k entry.2).trans (if_neg (Ne.symm hne))) e d
  rw [overlay, hfold]
  cases e.get? k with
  | none => rfl
  | some v => rfl

namespace ChannelGroup

variable {c d : ChannelGroup}

/-- The group with the name of the consortium and all other parts that a set of a difference has. -/
def overlay (c set : ChannelGroup) : ChannelGroup where
  consortium := set.consortium
  application := replacing none c.application set.application
  orderer := replacing none c.orderer set.orderer
  consortiums := c.consortiums.overlay set.consortiums
  capabilities := replacing [] c.capabilities set.capabilities
  policies := replacing .empty c.policies set.policies

/-- The same parts are there in both groups. -/
structure SameParts (c d : ChannelGroup) : Prop where
  application : c.application = none ↔ d.application = none
  orderer : c.orderer = none ↔ d.orderer = none
  consortiums : ∀ k, c.consortiums.get? k = none ↔ d.consortiums.get? k = none
  capabilities : c.capabilities = [] ↔ d.capabilities = []
  policies : c.policies = .empty ↔ d.policies = .empty

theorem SameParts.symm (h : c.SameParts d) : d.SameParts c :=
  ⟨h.application.symm, h.orderer.symm, fun k => (h.consortiums k).symm, h.capabilities.symm,
    h.policies.symm⟩

theorem replacing_unlessEqual {α : Type} [DecidableEq α] {nothing a b : α}
    (h : a = nothing ↔ b = nothing) :
    replacing nothing a (unlessEqual b a nothing) = b := by
  simp only [replacing, unlessEqual]
  grind

/-- The parts in which a group differs from another one with the same parts lead from the other one
to it. -/
theorem overlay_differing (h : c.SameParts d) {consortiums : Dict ConsortiumGroup}
    (hconsortiums : ∀ k, consortiums.get? k =
      unlessEqual (d.consortiums.get? k) (c.consortiums.get? k) none) :
    c.overlay (d.differing c consortiums) = d := by
  have hdict : c.consortiums.overlay consortiums = d.consortiums := Dict.ext_get? fun k => by
    rw [Dict.get?_overlay, hconsortiums, unlessEqual]
    split
    · rename_i hsame
      rw [Option.none_or, hsame]
    · rename_i hchanged
      cases hnew : d.consortiums.get? k with
      | none => exact absurd (hnew.trans ((h.consortiums k).2 hnew).symm) hchanged
      | some group => rfl
  rw [overlay]
  dsimp only [differing]
  rw [replacing_unlessEqual h.application, replacing_unlessEqual h.orderer,
    replacing_unlessEqual h.capabilities, replacing_unlessEqual h.policies, hdict]

end ChannelGroup

/-! ## Differences between groups with the same parts -/

variable {original updated : Config} {channelId : String}

theorem overlay_writeSet (h : original.channelGroup.SameParts updated.channelGroup) :
    original.channelGroup.overlay (deltaOf channelId original updated).writeSet =
      updated.channelGroup := by
  refine ChannelGroup.overlay_differing h fun k => ?_
  have hseen := congrArg Prod.snd (seenUnder_changedConsortiums
    original.channelGroup.consortiums updated.channelGroup.consortiums k)
  refine hseen.trans ?_
  rw [unlessEqual]
  grind

theorem overlay_readSet (h : original.channelGroup.SameParts updated.channelGroup) :
    updated.channelGroup.overlay (deltaOf channelId original updated).readSet =
      original.channelGroup := by
  refine ChannelGroup.overlay_differing h.symm fun k => ?_
  have hseen := congrArg Prod.fst (seenUnder_changedConsortiums
    original.channelGroup.consortiums updated.channelGroup.consortiums k)
  have hparts := h.consortiums k
  refine hseen.trans ?_
  rw [unlessEqual]
  grind

/-! ## Changes -/

section Changes

variable {group group' : ChannelGroup} {members : Dict Organization} {consortium : String}
  {f : Dict Organization → Except ClientError (Dict Organization)} {change : ConfigChange}
  {config : Config} {e : ClientError}

namespace ChannelGroup

theorem updateApplication_sameParts (h : group.updateApplication f = .ok group') :
    group.SameParts group' := by
  obtain ⟨application, members, happlication, -, rfl⟩ := updateApplication_ok_iff.1 h
  refine ⟨?_, Iff.rfl, fun _ => Iff.rfl, Iff.rfl, Iff.rfl⟩
  rw [happlication]
  exact iff_of_false (Option.some_ne_none _) (Option.some_ne_none _)

theorem updateConsortium_sameParts (h : group.updateConsortium consortium f = .ok group') :
    group.SameParts group' := by
  obtain ⟨old, members, hold, -, rfl⟩ := updateConsortium_ok_iff.1 h
  refine ⟨Iff.rfl, Iff.rfl, fun k => ?_, Iff.rfl, Iff.rfl⟩
  dsimp only
  rw [Dict.get?_insert]
  split
  · rename_i hk
    rw [hk, hold]
    exact iff_of_false (Option.some_ne_none _) (Option.some_ne_none _)
  · exact Iff.rfl

theorem updateApplication_error (h : group.updateApplication f = .error e) :
    e = .configDelta "channel has no application group" ∨ ∃ members, f members = .error e := by
  rw [updateApplication] at h
  split at h
  · cases h
    exact .inl rfl
  · rcases except_bind_error.1 h with h | ⟨_, -, h⟩
    · exact .inr ⟨_, h⟩
    · cases h

theorem updateConsortium_error (h : group.updateConsortium consortium f = .error e) :
    e = .consortiumNotFound consortium ∨ ∃ members, f members = .error e := by
  rw [updateConsortium] at h
  split at h
  · cases h
    exact .inl rfl
  · rcases except_bind_error.1 h with h | ⟨_, -, h⟩
    · exact .inr ⟨_, h⟩
    · cases h

end ChannelGroup

theorem addMember_error {organization : Organization}
    (h : addMember members organization = .error e) :
    e = .organizationExists organization.name := by
  rw [addMember] at h
  split at h
  · cases h
    rfl
  · cases h

theorem removeMember_error {name : String} (h : removeMember members name = .error e) :
    e = .organizationNotFound name := by
  rw [removeMember] at h
  split at h
  · cases h
  · cases h
    rfl

namespace ConfigChange

theorem applyTo_sameParts (h : change.applyTo group = .ok group') : group.SameParts group' := by
  cases change with rw [applyTo] at h
  | channelAdd organization => exact ChannelGroup.updateApplication_sameParts h
  | channelRemove name => exact ChannelGroup.updateApplication_sameParts h
  | consortiumAdd consortium organization => exact ChannelGroup.updateConsortium_sameParts h
  | consortiumRemove consortium name => exact ChannelGroup.updateConsortium_sameParts h

theorem apply_sameParts (h : change.apply config = .ok updated) :
    config.channelGroup.SameParts updated.channelGroup := by
  obtain ⟨group, hgroup, h⟩ := except_bind_ok.1 h
  cases h
  exact applyTo_sameParts hgroup

/-- A change cannot be applied where there is no group for it, where the new member is there
already, or where the old one is not there. -/
theorem apply_error (h : change.apply config = .error e) :
    e = .configDelta "channel has no application group" ∨
      ∃ name, e = .consortiumNotFound name ∨ e = .organizationExists name ∨
        e = .organizationNotFound name := by
  have happly : change.applyTo config.channelGroup = .error e := by
    rcases except_bind_error.1 h with h | ⟨_, -, h⟩
    · exact h
    · cases h
  cases change with rw [applyTo] at happly
  | channelAdd organization =>
    rcases ChannelGroup.updateApplication_error happly with h | ⟨_, h⟩
    · exact .inl h
    · exact .inr ⟨_, .inr (.inl (addMember_error h))⟩
  | channelRemove name =>
    rcases ChannelGroup.updateApplication_error happly with h | ⟨_, h⟩
    · exact .inl h
    · exact .inr ⟨_, .inr (.inr (removeMember_error h))⟩
  | consortiumAdd consortium organization =>
    rcases ChannelGroup.updateConsortium_error happly with h | ⟨_, h⟩
    · exact .inr ⟨_, .inl h⟩
    · exact .inr ⟨_, .inr (.inl (addMember_error h))⟩
  | consortiumRemove consortium name =>
    rcases ChannelGroup.updateConsortium_error happly with h | ⟨_, h⟩
    · exact .inr ⟨_, .inl h⟩
    · exact .inr ⟨_, .inr (.inr (removeMember_error h))⟩

theorem apply_error_ne (h : change.apply config = .error e) :
    e ≠ .configDelta "no differences detected between original and updated config" := by
  intro hsame
  rcases apply_error h with hgroup | ⟨name, hmissing | hexists | habsent⟩
  · exact absurd (ClientError.configDelta.inj (hgroup.symm.trans hsame)) (by decide)
  · cases hmissing.symm.trans hsame
  · cases hexists.symm.trans hsame
  · cases habsent.symm.trans hsame

end ConfigChange

end Changes

/-! ## Proposals -/

/-- The difference leads from the one group to the other and back. -/
structure ConfigUpdate.LinksGroups (delta : ConfigUpdate) (before after : ChannelGroup) : Prop where
  forwards : before.overlay delta.writeSet = after
  backwards : after.overlay delta.readSet = before

theorem deltaOf_linksGroups (channelId : String)
    (h : original.channelGroup.SameParts updated.channelGroup) :
    (deltaOf channelId original updated).LinksGroups original.channelGroup updated.channelGroup :=
  ⟨overlay_writeSet h, overlay_readSet h⟩

/-- The lengths and counts in the difference can be written; longer parts have no encoding. -/
def ConfigUpdate.Writable (delta : ConfigUpdate) : Prop :=
  (schema ConfigUpdate).Fits (pack delta)

theorem propose_of_error {signer : Signer} {headers : HeaderSource} {config : Config}
    {change : ConfigChange} {e : ClientError} (h : change.apply config = .error e) :
    propose signer channelId config change computeDelta headers = .error e headers := by
  rw [propose, h]
  rfl

/-- A signer that signs proposes exactly the changes that can be applied; what stands against a
change is never that it makes no difference, and then no header is made.  A proposal holds the
difference that the change makes, which leads from the old group to the new one and back, and is
signed for its bytes by the organization of the signer. -/
theorem propose_reversible (channelId : String) (config : Config) (change : ConfigChange)
    (signer : Signer) (headers : HeaderSource)
    (hsigns : ∀ update, ∃ s headers', signConfigUpdate signer update headers = .ok s headers') :
    ((∃ p headers', propose signer channelId config change computeDelta headers = .ok p headers') ↔
        ∃ updated, change.apply config = .ok updated) ∧
      (∀ e headers', propose signer channelId config change computeDelta headers =
        .error e headers' → headers' = headers ∧ change.apply config = .error e ∧
          e ≠ .configDelta "no differences detected between original and updated config") ∧
      ∀ p headers', propose signer channelId config change computeDelta headers =
        .ok p headers' → ∃ updated delta, change.apply config = .ok updated ∧
          p.proposal = toWire delta ∧
          (delta.Writable → decodeMessage ConfigUpdate p.proposal = .ok delta) ∧
          delta.channelId = channelId ∧ delta.readSequence = config.sequence ∧
          delta.LinksGroups config.channelGroup updated.channelGroup ∧
          p.channelId = channelId ∧ p.sponsor.proposalHash = hashOf p.proposal ∧
          p.sponsor.creator = signer.orgId := by
  have hpropose {updated : Config} (happly : change.apply config = .ok updated) :
      ∃ p headers', propose signer channelId config change computeDelta headers =
        .ok p headers' := by
    obtain ⟨s, headers', hsigned⟩ := hsigns (toWire (deltaOf channelId config updated))
    have hmade := signProposed_ok_iff.2 ⟨s, hsigned, rfl⟩
    exact ⟨_, headers', propose_ok_iff.2
      ⟨updated, _, _, happly, computeDelta_of_apply happly channelId, hmade, rfl⟩⟩
  refine ⟨⟨?_, ?_⟩, ?_, ?_⟩
  · rintro ⟨p, headers', h⟩
    obtain ⟨updated, -, -, happly, -⟩ := propose_ok_iff.1 h
    exact ⟨updated, happly⟩
  · rintro ⟨updated, happly⟩
    exact hpropose happly
  · intro e headers' h
    cases happly : change.apply config with
    | ok updated =>
      obtain ⟨p, last, hok⟩ := hpropose happly
      cases hok.symm.trans h
    | error e' =>
      rw [propose_of_error happly] at h
      cases h
      exact ⟨rfl, rfl, ConfigChange.apply_error_ne happly⟩
  · intro p headers' h
    obtain ⟨updated, delta, x, happly, hdelta, hsigned, rfl⟩ := propose_ok_iff.1 h
    cases (computeDelta_of_apply happly channelId).symm.trans hdelta
    obtain ⟨s, -, rfl⟩ := signProposed_ok_iff.1 hsigned
    have hlinks := deltaOf_linksGroups channelId (ConfigChange.apply_sameParts happly)
    exact ⟨updated, _, happly, rfl, decodeMessage_toWire rfl, rfl, rfl, hlinks, rfl, rfl, rfl⟩

/-! ### A member that leaves -/

/-- The configuration of a system channel with one consortium of one member and one of none. -/
def systemConfig : Config where
  sequence := 1
  channelGroup := { ChannelGroup.empty with
    consortiums := .ofList [("Alpha", ⟨.ofList [("Org4", newcomer)]⟩), ("Beta", ⟨.empty⟩)] }

/-- The member of a consortium leaves. -/
theorem propose_reversible_leavingMember :
    let signer := neutralSigner "Org1MSP"
    let change := ConfigChange.consortiumRemove "Alpha" "Org4"
    let updated := consortiumConfig ["Alpha", "Beta"]
    (∀ update, ∃ s headers', signConfigUpdate signer update epoch = .ok s headers') ∧
      ∃ p headers' delta,
        propose signer "system" systemConfig change computeDelta epoch = .ok p headers' ∧
        decodeMessage ConfigUpdate p.proposal = .ok delta ∧
        delta.LinksGroups systemConfig.channelGroup updated.channelGroup ∧
        p.sponsor.proposalHash = hashOf p.proposal ∧ p.sponsor.creator = "Org1MSP" := by
  intro signer change updated
  have hsigns : ∀ update, ∃ s headers', signConfigUpdate signer update epoch = .ok s headers' :=
    fun update => ⟨_, _, rfl⟩
  have happly : change.apply systemConfig = .ok updated := by decide
  obtain ⟨hiff, -, hmade⟩ := propose_reversible "system" systemConfig change signer epoch hsigns
  obtain ⟨p, headers', hpropose⟩ := hiff.2 ⟨updated, happly⟩
  obtain ⟨updated', delta, happlied, hproposal, hread, -, -, hlinks, -, hhash, hcreator⟩ :=
    hmade p headers' hpropose
  cases happly.symm.trans happlied
  have hlength : p.proposal.length < 2 ^ 32 := by
    obtain ⟨_, _, x, happlied', hdelta, -, rfl⟩ := propose_ok_iff.1 hpropose
    cases happly.symm.trans happlied'
    cases hdelta
    change (toWire (deltaOf "system" systemConfig updated)).length < _
    decide +kernel
  rw [hproposal] at hlength
  have hwritable : delta.Writable := Schema.fits_of_length rfl hlength
  exact ⟨hsigns, p, headers', delta, hpropose, hread hwritable, hlinks, hhash, hcreator⟩

end LedgerClient
