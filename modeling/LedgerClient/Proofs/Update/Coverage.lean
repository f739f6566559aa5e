import LedgerClient.Proofs.Update.Session
import LedgerClient.Proofs.Wire.Truncation
/-!
# What a signature on an update covers

A signer signs the bytes of a header followed by those of an update, with nothing between them.
Where the header ends can be told from the bytes, so one signed message is never good for two
updates or for two creators.

* `signature_covers_one`: two signatures over the same bytes have the same header and the same
  update.
-/

namespace LedgerClient

/-- If headers can be read from two signatures, and each header followed by an update makes the same
bytes, the headers and the updates are the same.  So if both signatures verify, they name the same
creator, and are of the same organization, for the same update. -/
theorem signature_covers_one (s s' : ConfigSignature) (update update' : Bytes)
    (heq : s.signatureHeader ++ update = s'.signatureHeader ++ update') :
    (∀ header header', decodeMessage SignatureHeader s.signatureHeader = .ok header →
      decodeMessage SignatureHeader s'.signatureHeader = .ok header' →
      s.signatureHeader = s'.signatureHeader ∧ header = header' ∧ update = update') ∧
    ∀ organization organization', verifyConfigSignature s update = .ok organization →
      verifyConfigSignature s' update' = .ok organization' →
      s.creator = s'.creator ∧ organization = organization' ∧ update = update' := by
  have hsplit {header header' : SignatureHeader}
      (h : decodeMessage SignatureHeader s.signatureHeader = .ok header)
      (h' : decodeMessage SignatureHeader s'.signatureHeader = .ok header') :
      s.signatureHeader = s'.signatureHeader ∧ update = update' :=
    front_of_decodeMessage h h' heq
  refine ⟨fun header header' h h' => ?_, fun organization organization' h h' => ?_⟩
  · obtain ⟨hheaders, hupdates⟩ := hsplit h h'
    rw [hheaders, h'] at h
    exact ⟨hheaders, (Except.ok.inj h).symm, hupdates⟩
  · obtain ⟨header, identity, hheader, hidentity, rfl, -⟩ := verifyConfigSignature_ok_iff.1 h
    obtain ⟨header', identity', hheader', hidentity', rfl, -⟩ := verifyConfigSignature_ok_iff.1 h'
    obtain ⟨hheaders, hupdates⟩ := hsplit hheader hheader'
    have hcreator := ConfigSignature.creator_ok_iff.2 ⟨header, hheader, rfl, hidentity⟩
    have hcreator' := ConfigSignature.creator_ok_iff.2 ⟨header', hheader', rfl, hidentity'⟩
    have hsame : s.creator = s'.creator := by
      rw [ConfigSignature.creator, hheaders, ConfigSignature.creator]
    have hidentities := hsame
    rw [hcreator, hcreator', Except.ok.injEq, Prod.mk.injEq] at hidentities
    exact ⟨hsame, congrArg SerializedIdentity.orgId hidentities.2, hupdates⟩

/-- A signature whose header takes the first byte of the update does not verify for the rest of the
update, though the signed bytes are the same. -/
theorem signature_covers_one_movedBoundary :
    let s := neutralConfigSignature "Org1MSP"
    let moved : ConfigSignature := { s with signatureHeader := s.signatureHeader ++ [1] }
    s.signatureHeader ++ [1, 2, 3] = moved.signatureHeader ++ [2, 3] ∧
      verifyConfigSignature s [1, 2, 3] = .ok "Org1MSP" ∧
      ∀ organization, verifyConfigSignature moved [2, 3] ≠ .ok organization := by
  intro s moved
  have heq : s.signatureHeader ++ [1, 2, 3] = moved.signatureHeader ++ [2, 3] := by
    rw [List.append_assoc]
    rfl
  have hidentity : decodeMessage SerializedIdentity (identityOf "Org1MSP" Ed25519.neutralKey) =
      .ok ⟨"Org1MSP", Ed25519.neutralKey⟩ := decodeMessage_identityOf (by decide)
  have hverifies : verifyConfigSignature s [1, 2, 3] = .ok "Org1MSP" :=
    verifyConfigSignature_ok_iff.2 ⟨_, _, decodeMessage_signatureHeader (by decide) (by decide),
      hidentity, rfl, verifySignature_of_key hidentity (Ed25519.verify_neutral _)⟩
  refine ⟨heq, hverifies, fun organization h => ?_⟩
  obtain ⟨-, hcovers⟩ := signature_covers_one s moved [1, 2, 3] [2, 3] heq
  exact absurd (hcovers _ _ hverifies h).2.2 (by decide)

end LedgerClient
