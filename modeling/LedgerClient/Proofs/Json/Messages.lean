import LedgerClient.Message.Catalog
import LedgerClient.Proofs.Json.RoundTrip
import LedgerClient.Update.Membership
/-!
# Messages as texts and as bytes

Proposals and signatures travel between organizations as texts, while hashes are taken of bytes, so
that a text has to give the bytes of the value that it was written for.

* `TextFaithful`: each value is read back from its text, and with it its bytes.
* `textFaithful_of_legible`: this holds where the names in the schema can be told apart.
* `textFaithful_messages`: it holds for the messages of the catalog, for proposals and for
  signatures.  `collectionForm`, `sourceForm` and `signatureForm` say how some of them are written.
-/

namespace LedgerClient

open Json (Value)

variable {α : Type}

/-- A value is read back from its text, and the bytes of what is read are its own. -/
def TextFaithful (α : Type) [Layout α] : Prop :=
  ∀ a : α, fromJsonText α (toJsonText a) = .ok a ∧
    toWire <$> fromJsonText α (toJsonText a) = .ok (toWire a)

theorem textFaithful_of_legible [Layout α] (h : (schema α).legible = true) : TextFaithful α := by
  intro a
  have hread : fromJsonText α (toJsonText a) = .ok a := fromJson_toJsonText h a
  refine ⟨hread, ?_⟩
  rw [hread]
  rfl

theorem legible_of_mem_catalog : ∀ e ∈ catalog, e.schema.legible = true := by
  decide

/-! ## Forms of values -/

/-- A policy that may be missing. -/
def policyForm : Option ApplicationPolicy → Value
  | none => .null
  | some (.signaturePolicy expression) => .object [("SignaturePolicy", .text expression)]
  | some (.channelConfigPolicyReference reference) =>
    .object [("ChannelConfigPolicyReference", .text reference)]

theorem toJson_policy (o : Option ApplicationPolicy) : toJson o = policyForm o := by
  cases o with
  | none => rfl
  | some p => cases p <;> rfl

/-- A collection, under names in camel case. -/
def collectionForm (c : CollectionConfig) : Value := .object [
  ("name", .text c.name), ("policy", .text c.policy),
  ("requiredPeerCount", .number c.requiredPeerCount.toInt),
  ("maxPeerCount", .number c.maxPeerCount.toInt), ("blockToLive", .number c.blockToLive.toNat),
  ("memberOnlyRead", .bool c.memberOnlyRead), ("memberOnlyWrite", .bool c.memberOnlyWrite),
  ("endorsementPolicy", policyForm c.endorsementPolicy)]

theorem toJson_collection (c : CollectionConfig) : toJson c = collectionForm c := by
  rw [collectionForm, ← toJson_policy]
  rfl

def sourceForm : ChaincodeSource → Value
  | .localPackage packageId => .object [("LocalPackage", .object [("package_id", .text packageId)])]
  | .unavailable => .text "Unavailable"

theorem toJson_source (s : ChaincodeSource) : toJson s = sourceForm s := by
  cases s <;> rfl

def bytesForm (bs : Bytes) : Value := .array (bs.map fun b => .number b.toNat)

def signatureForm (s : ProposalSignature) : Value := .object [
  ("proposal_hash", bytesForm s.proposalHash), ("creator", .text s.creator),
  ("signature", bytesForm s.signature)]

theorem toJson_signature (s : ProposalSignature) : toJson s = signatureForm s := rfl

/-! ## All messages -/

/-- The text of a message, of a proposal or of a signature gives back the value and its bytes. -/
theorem textFaithful_messages :
    (∀ (name : String) (α : Type) [Message α], CatalogEntry.of name α ∈ catalog →
      TextFaithful α) ∧
    TextFaithful MembershipProposal ∧ TextFaithful ProposalSignature ∧
    (∀ c : CollectionConfig, toJson c = collectionForm c) ∧
    (∀ s : ChaincodeSource, toJson s = sourceForm s) ∧
    (∀ s : ProposalSignature, toJson s = signatureForm s) := by
  refine ⟨fun name α _ hα => ?_, ?_, ?_, toJson_collection, toJson_source, toJson_signature⟩
  · exact textFaithful_of_legible (legible_of_mem_catalog _ hα)
  · exact textFaithful_of_legible (by decide)
  · exact textFaithful_of_legible (by decide)

/-- A committed definition with the least and greatest numbers, a collection with a policy and one
without, and approvals under keys that have to be escaped. -/
def extremeDefinition : QueryChaincodeDefinitionResult where
  sequence := Int64.minValue
  version := "1.0"
  endorsementPlugin := "escc"
  validationPlugin := ""
  validationParameter := [0, 255]
  collections := some { config := [
    { name := "secret", policy := "OR('A.member')", requiredPeerCount := Int32.minValue,
      maxPeerCount := Int32.maxValue, blockToLive := 0xffffffffffffffff, memberOnlyRead := true,
      memberOnlyWrite := false, endorsementPolicy := some (.signaturePolicy "AND('A.peer')") },
    { name := "open", policy := "", requiredPeerCount := 0, maxPeerCount := 0, blockToLive := 0,
      memberOnlyRead := false, memberOnlyWrite := false, endorsementPolicy := none }] }
  initRequired := true
  approvals := Dict.ofList [("a\"b\\c", true), ("\n\x00", false), ("ключ", true)]

theorem textFaithful_extremeDefinition :
    CatalogEntry.of "QueryChaincodeDefinitionResult" QueryChaincodeDefinitionResult ∈ catalog ∧
    fromJsonText QueryChaincodeDefinitionResult (toJsonText extremeDefinition) =
      .ok extremeDefinition ∧
    toWire <$> fromJsonText QueryChaincodeDefinitionResult (toJsonText extremeDefinition) =
      .ok (toWire extremeDefinition) := by
  have hmem : CatalogEntry.of "QueryChaincodeDefinitionResult" QueryChaincodeDefinitionResult ∈
      catalog := List.mem_of_getElem? (i := 69) rfl
  exact ⟨hmem, textFaithful_messages.1 _ _ hmem extremeDefinition⟩

end LedgerClient
