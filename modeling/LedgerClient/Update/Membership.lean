import LedgerClient.Schema.Json
import LedgerClient.Update.Change
import LedgerClient.Update.Delta
import LedgerClient.Update.Session
/-!
# Membership proposals

A change of membership is proposed by a sponsor, signed by other organizations on their own, and
submitted by the sponsor.  Signatures belong to a proposal by the hash of its bytes.
-/

namespace LedgerClient

/-- A signature over a proposed update, made apart from it. -/
structure ProposalSignature where
  proposalHash : Bytes
  /-- The organization that claims to have signed. -/
  creator : String
  /-- The encoded `ConfigSignature`. -/
  signature : Bytes
  deriving DecidableEq

instance : Layout ProposalSignature where
  schema := .record <| .field "proposal_hash" Bytes <| .field "creator" String <|
    .field "signature" Bytes .nil
  pack x := (pack x.proposalHash, pack x.creator, pack x.signature, ())
  unpack c := ⟨unpack c.1, unpack c.2.1, unpack c.2.2.1⟩
  unpack_pack x := by simp
  pack_unpack c := by simp

/-- A proposed update as it is handed to other organizations. -/
structure MembershipProposal where
  channelId : String
  /-- The encoded `ConfigUpdate`. -/
  proposal : Bytes
  sponsor : ProposalSignature
  deriving DecidableEq

instance : Layout MembershipProposal where
  schema := .record <| .field "channel_id" String <| .field "proposal" Bytes <|
    .field "sponsor" ProposalSignature .nil
  pack x := (pack x.channelId, pack x.proposal, pack x.sponsor, ())
  unpack c := ⟨unpack c.1, unpack c.2.1, unpack c.2.2.1⟩
  unpack_pack x := by simp
  pack_unpack c := by simp

def signProposed (signer : Signer) (proposal : Bytes) : Issuing ProposalSignature := do
  let signature ← signConfigUpdate signer proposal
  return {
    proposalHash := hashOf proposal
    creator := signer.orgId
    signature := toWire signature }

/-- Applies a change, computes the difference and signs it as sponsor. -/
def propose (signer : Signer) (channelId : String) (config : Config) (change : ConfigChange)
    (computer : DeltaComputer) : Issuing MembershipProposal := do
  let updated ← change.apply config
  let update ← computer channelId config updated
  let proposal := toWire update
  let sponsor ← signProposed signer proposal
  return { channelId := channelId, proposal := proposal, sponsor := sponsor }

/-- Signs a proposal of another organization. -/
def MembershipProposal.sign (p : MembershipProposal) (signer : Signer) :
    Issuing ProposalSignature :=
  signProposed signer p.proposal

/-- Adds signatures that were made for the proposal with a given hash. -/
def addCollected (hash : Bytes) (session : UpdateSession) :
    List ProposalSignature → Except ClientError UpdateSession
  | [] => .ok session
  | s :: rest => do
    if s.proposalHash ≠ hash then throw (.signatureMismatch s.creator)
    let signature ← decodeMessage ConfigSignature s.signature
    addCollected hash (← session.addSignature signature) rest

/-- Merges the signatures of the sponsor and of others; only the sponsor may do this. -/
def MembershipProposal.collect (p : MembershipProposal) (signer : Signer)
    (signatures : List ProposalSignature) : Except ClientError UpdateSession := do
  if p.sponsor.creator ≠ signer.orgId then
    throw (.proposerMismatch p.sponsor.creator signer.orgId)
  if p.sponsor.proposalHash ≠ hashOf p.proposal then throw (.signatureMismatch p.sponsor.creator)
  addCollected p.sponsor.proposalHash (.start p.channelId p.proposal) (p.sponsor :: signatures)

/-- The envelope that submits a proposal with its signatures. -/
def MembershipProposal.submission (p : MembershipProposal) (signer : Signer)
    (signatures : List ProposalSignature) : Issuing Envelope := do
  let session ← p.collect signer signatures
  checkAndSign (session.envelope (← get).time) signer p.channelId

end LedgerClient
