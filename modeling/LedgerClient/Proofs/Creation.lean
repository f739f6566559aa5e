import LedgerClient.Channel.Creation
import Mathlib.Data.List.Dedup
import Mathlib.Data.List.Forall2
/-!
# What the creation of a channel tells about its members

The update that creates a channel names the members in the set that was read and in the set that is
written.  The certificates and policies of an organization are in neither.

* `Organization.Alike`: organizations that differ in their certificates and policies at most.
* `creationGroup_members`: the members of both sets.
* `creationUpdate_hides_definitions`: the update is the same for lists of such organizations.
-/

namespace LedgerClient

variable {organizations organizations' : List Organization}

/-- The same but for the certificates and the policies. -/
structure Organization.Alike (o o' : Organization) : Prop where
  name : o.name = o'.name
  mspId : o.mspId = o'.mspId
  kind : o.kind = o'.kind
  anchorPeers : o.anchorPeers = o'.anchorPeers
  ordererEndpoints : o.ordererEndpoints = o'.ordererEndpoints

/-- Neither certificates nor policies. -/
structure Organization.Undefined (o : Organization) : Prop where
  rootCerts : o.rootCerts = []
  tlsRootCerts : o.tlsRootCerts = []
  adminCerts : o.adminCerts = []
  policies : o.policies = .empty

namespace Organization

variable {o o' : Organization}

theorem undefined_reference (o : Organization) : o.reference.Undefined := ⟨rfl, rfl, rfl, rfl⟩

theorem alike_reference (o : Organization) : o.reference.Alike o := ⟨rfl, rfl, rfl, rfl, rfl⟩

/-- A reference holds what organizations have in common, and nothing else. -/
theorem reference_eq_iff : o.reference = o'.reference ↔ o.Alike o' := by
  constructor
  · intro h
    rw [reference, reference, mk.injEq] at h
    obtain ⟨hname, hmspId, hkind, -, -, -, hanchors, hendpoints, -⟩ := h
    exact ⟨hname, hmspId, hkind, hanchors, hendpoints⟩
  · rintro ⟨hname, hmspId, hkind, hanchors, hendpoints⟩
    rw [reference, reference, hname, hmspId, hkind, hanchors, hendpoints]

end Organization

theorem membersOf_eq_of_alike (h : organizations.Forall₂ Organization.Alike organizations') :
    membersOf organizations = membersOf organizations' := by
  rw [membersOf, membersOf]
  congr 1
  induction h with
  | nil => rfl
  | cons halike _ ih =>
    rw [List.map_cons, List.map_cons, ih, halike.name, Organization.reference_eq_iff.2 halike]

/-- Of organizations with the same name the last one is referred to. -/
theorem get?_membersOf (organizations : List Organization) (name : String) :
    (membersOf organizations).get? name =
      (organizations.reverse.find? (·.name = name)).map Organization.reference := by
  rw [membersOf, Dict.get?_ofList, ← List.map_reverse, List.find?_map, Option.map_map]
  rfl

/-- There is one member for each name. -/
theorem keys_membersOf (organizations : List Organization) :
    (membersOf organizations).keys.Perm (organizations.map (·.name)).dedup := by
  refine (List.perm_ext_iff_of_nodup (Dict.nodup_keys _) (List.nodup_dedup _)).2 fun name => ?_
  rw [membersOf, Dict.mem_keys_ofList, List.mem_dedup, List.map_map]
  rfl

/-- A member is an organization of its name without what defines it. -/
theorem exists_of_get?_membersOf {name : String} {o : Organization}
    (h : (membersOf organizations).get? name = some o) :
    o.name = name ∧ o.Undefined ∧ ∃ o' ∈ organizations, o.Alike o' := by
  rw [get?_membersOf, Option.map_eq_some_iff] at h
  obtain ⟨o', hfound, rfl⟩ := h
  have hname : o'.name = name := by simpa only [decide_eq_true_eq] using List.find?_some hfound
  exact ⟨hname, o'.undefined_reference, o',
    List.mem_reverse.1 (List.mem_of_find?_eq_some hfound), o'.alike_reference⟩

/-- Organizations in the same places that differ in their certificates and policies at most give the
same update.  It has the members in the set that was read and in the set that is written, one for
each name under this name, and none of them has certificates or policies. -/
theorem creationUpdate_hides_definitions (channelId consortium : String)
    (hne : organizations ≠ []) (halike : organizations.Forall₂ Organization.Alike organizations') :
    ∃ update read write, creationUpdate channelId consortium organizations = .ok update ∧
      creationUpdate channelId consortium organizations' = .ok update ∧
      update.channelId = channelId ∧ update.readSequence = 0 ∧
      update.readSet.consortium = some consortium ∧
      update.writeSet.consortium = some consortium ∧
      update.readSet.application = some read ∧ update.writeSet.application = some write ∧
      read.organizations = write.organizations ∧
      read.organizations.keys.Perm (organizations.map (·.name)).dedup ∧
      (∀ name, read.organizations.get? name =
        (organizations.reverse.find? (·.name = name)).map Organization.reference) ∧
      ∀ name o, read.organizations.get? name = some o →
        o.name = name ∧ o.Undefined ∧ ∃ o' ∈ organizations, o.Alike o' := by
  have hempty : ¬organizations.isEmpty = true := fun h => hne (List.isEmpty_iff.1 h)
  have hempty' : ¬organizations'.isEmpty = true := by
    rw [List.isEmpty_iff]
    rintro rfl
    cases halike
    exact hne rfl
  refine ⟨_, _, _, if_neg hempty, ?_, rfl, rfl, rfl, rfl, rfl, rfl, rfl,
    keys_membersOf organizations, get?_membersOf organizations,
    fun name o => exists_of_get?_membersOf⟩
  rw [creationUpdate, if_neg hempty', membersOf_eq_of_alike halike]

/-- A list with a name in it twice; what the organizations are defined by is left open. -/
def namesakes (certs : List Bytes) (policies : Dict Policy) : List Organization :=
  [.standard .peer "Org1" "Org1MSP",
    { Organization.standard .peer "Org2" "Org2MSP" with rootCerts := certs },
    { Organization.standard .peer "Org1" "OtherMSP" with adminCerts := certs, policies := policies }]

theorem creationUpdate_hides_definitions_namesakes :
    namesakes [] .empty ≠ [] ∧
      (namesakes [] .empty).Forall₂ Organization.Alike
        (namesakes [[0x30]] (peerOrganizationPolicies "OtherMSP")) ∧
      ∃ update read, creationUpdate "mychannel" "SampleConsortium" (namesakes [] .empty) =
          .ok update ∧
        creationUpdate "mychannel" "SampleConsortium"
          (namesakes [[0x30]] (peerOrganizationPolicies "OtherMSP")) = .ok update ∧
        update.writeSet.application = some read ∧ read.organizations.keys.length = 2 ∧
        (read.organizations.get? "Org1").map (·.mspId) = some "OtherMSP" := by
  have hne : namesakes [] .empty ≠ [] := List.cons_ne_nil _ _
  have halike : (namesakes [] .empty).Forall₂ Organization.Alike
      (namesakes [[0x30]] (peerOrganizationPolicies "OtherMSP")) :=
    .cons ⟨rfl, rfl, rfl, rfl, rfl⟩ (.cons ⟨rfl, rfl, rfl, rfl, rfl⟩
      (.cons ⟨rfl, rfl, rfl, rfl, rfl⟩ .nil))
  obtain ⟨update, read, write, h, h', -, -, -, -, -, hwrite, heq, hkeys, hget, -⟩ :=
    creationUpdate_hides_definitions "mychannel" "SampleConsortium" hne halike
  refine ⟨hne, halike, update, write, h, h', hwrite, ?_, ?_⟩
  · rw [← heq, hkeys.length_eq]
    decide
  · rw [← heq, hget]
    decide

end LedgerClient
