import LedgerClient.Proofs.Signature.Neutral
import LedgerClient.Proofs.Transaction.Assembly
import LedgerClient.Update.Session
/-!
# Signatures on an update

* `ConfigSignature.Verifies`: the signature verifies over its header and the update, and the
  identity in the header belongs to an organization.  `verifyConfigSignature_ok_iff`: this is what
  is checked.
* `Signer.Sound`: what is known of a signer whose identity names its organization and whose
  signatures are accepted.  `Signer.ofKey_sound`, `neutralSigner_sound`: the signers of keys are
  sound.
* `signConfigUpdate_ok_iff`, `verifies_of_signConfigUpdate`: what a signer makes, and that it
  verifies.
-/

namespace LedgerClient

variable {signer : Signer} {update : Bytes} {organization : String}

/-- The signature verifies over its header followed by the update, and the identity in the header
is of an organization. -/
def ConfigSignature.Verifies (s : ConfigSignature) (update : Bytes) (organization : String) :
    Prop :=
  ∃ header identity, decodeMessage SignatureHeader s.signatureHeader = .ok header ∧
    decodeMessage SerializedIdentity header.creator = .ok identity ∧
    identity.orgId = organization ∧
    verifySignature header.creator (s.signatureHeader ++ update) s.signature = .ok ()

theorem ConfigSignature.creator_ok_iff {s : ConfigSignature} {creator : Bytes}
    {identity : SerializedIdentity} :
    s.creator = .ok (creator, identity) ↔
      ∃ header, decodeMessage SignatureHeader s.signatureHeader = .ok header ∧
        header.creator = creator ∧ decodeMessage SerializedIdentity creator = .ok identity := by
  rw [ConfigSignature.creator]
  constructor
  · intro h
    obtain ⟨header, hheader, h⟩ := except_bind_ok.1 h
    obtain ⟨identity', hidentity, h⟩ := except_bind_ok.1 h
    cases h
    exact ⟨header, hheader, rfl, hidentity⟩
  · rintro ⟨header, hheader, rfl, hidentity⟩
    exact except_bind_ok.2 ⟨header, hheader, except_bind_ok.2 ⟨identity, hidentity, rfl⟩⟩

theorem verifyConfigSignature_ok_iff {s : ConfigSignature} :
    verifyConfigSignature s update = .ok organization ↔ s.Verifies update organization := by
  rw [verifyConfigSignature]
  constructor
  · intro h
    obtain ⟨⟨creator, identity⟩, hcreator, h⟩ := except_bind_ok.1 h
    obtain ⟨_, hverify, h⟩ := except_bind_ok.1 h
    cases h
    obtain ⟨header, hheader, rfl, hidentity⟩ := ConfigSignature.creator_ok_iff.1 hcreator
    exact ⟨header, identity, hheader, hidentity, rfl, mapError_ok_iff.1 hverify⟩
  · rintro ⟨header, identity, hheader, hidentity, rfl, hverify⟩
    refine except_bind_ok.2 ⟨(header.creator, identity),
      ConfigSignature.creator_ok_iff.2 ⟨header, hheader, rfl, hidentity⟩, ?_⟩
    exact except_bind_ok.2 ⟨(), mapError_ok_iff.2 hverify, rfl⟩

/-- A signature is of one organization. -/
theorem ConfigSignature.Verifies.unique {s : ConfigSignature} {other : String}
    (h : s.Verifies update organization) (h' : s.Verifies update other) :
    organization = other := by
  have hfirst := verifyConfigSignature_ok_iff.2 h
  rw [verifyConfigSignature_ok_iff.2 h'] at hfirst
  cases hfirst
  rfl

/-- A verified signature names its organization. -/
theorem ConfigSignature.Verifies.isFrom_iff {s : ConfigSignature} {other : String}
    (h : s.Verifies update organization) : s.isFrom other = true ↔ organization = other := by
  obtain ⟨header, identity, hheader, hidentity, rfl, -⟩ := h
  rw [ConfigSignature.isFrom,
    ConfigSignature.creator_ok_iff.2 ⟨header, hheader, rfl, hidentity⟩]
  exact decide_eq_true_iff

/-! ## Signers -/

/-- A signer whose identity names its organization, whose signatures are accepted under this
identity, and whose headers are short enough to be written. -/
structure Signer.Sound (s : Signer) : Prop where
  named : ∃ key, decodeMessage SerializedIdentity s.identity = .ok ⟨s.orgId, key⟩
  accepted : ∀ message signature, s.sign message = .ok signature →
    verifySignature s.identity message signature = .ok ()
  identity_short : s.identity.length < 2 ^ 32
  nonce_short : ∀ n nonce, s.nonce n = .ok nonce → nonce.length < 2 ^ 32

/-- A signer that never fails. -/
structure Signer.Total (s : Signer) : Prop where
  signs : ∀ message, ∃ signature, s.sign message = .ok signature
  draws : ∀ n, ∃ nonce, s.nonce n = .ok nonce

theorem verifySignature_of_key {identity : Bytes} {organization : String} {key message : Bytes}
    {signature : Bytes}
    (hidentity : decodeMessage SerializedIdentity identity = .ok ⟨organization, key⟩)
    (h : Ed25519.verify key message signature = .ok ()) :
    verifySignature identity message signature = .ok () := by
  rw [verifySignature, hidentity]
  exact mapError_ok_iff.2 h

theorem decodeMessage_identityOf {organization : String} {key : Bytes}
    (h : (identityOf organization key).length < 2 ^ 32) :
    decodeMessage SerializedIdentity (identityOf organization key) = .ok ⟨organization, key⟩ :=
  decodeMessage_of_length rfl rfl h

/-- The signer of a key is sound if what the key signs is accepted. -/
theorem Signer.ofKey_sound {key : Ed25519.SecretKey} {nonces : Nat → Bytes}
    (hcorrect : ∀ message, Ed25519.verify key.publicKey message (key.sign message) = .ok ())
    (hidentity : (identityOf organization key.publicKey).length < 2 ^ 32)
    (hnonces : ∀ n, (nonces n).length < 2 ^ 32) :
    (Signer.ofKey organization key nonces).Sound where
  named := ⟨key.publicKey, decodeMessage_identityOf hidentity⟩
  accepted := by
    intro message signature h
    cases h
    exact verifySignature_of_key (decodeMessage_identityOf hidentity) (hcorrect message)
  identity_short := hidentity
  nonce_short := by
    intro n nonce h
    cases h
    exact hnonces n

/-- The signer with the key of the neutral point. -/
def neutralSigner (organization : String) : Signer where
  orgId := organization
  identity := identityOf organization Ed25519.neutralKey
  sign := fun _ => .ok Ed25519.neutralSignature
  nonce := fun n => .ok (numberedNonce n)

theorem neutralSigner_sound
    (h : (identityOf organization Ed25519.neutralKey).length < 2 ^ 32) :
    (neutralSigner organization).Sound where
  named := ⟨Ed25519.neutralKey, decodeMessage_identityOf h⟩
  accepted := by
    intro message signature hsign
    cases hsign
    exact verifySignature_of_key (decodeMessage_identityOf h) (Ed25519.verify_neutral message)
  identity_short := h
  nonce_short := by
    intro n nonce hnonce
    cases hnonce
    rw [numberedNonce, List.length_replicate]
    decide

/-! ## What a signer makes -/

/-- A signature is made over a new header followed by the update. -/
theorem signConfigUpdate_ok_iff {headers headers' : HeaderSource} {s : ConfigSignature} :
    signConfigUpdate signer update headers = .ok s headers' ↔
      ∃ nonce, signer.nonce headers.drawn = .ok nonce ∧
        s.signatureHeader = toWire ({ creator := signer.identity, nonce } : SignatureHeader) ∧
        signer.sign (s.signatureHeader ++ update) = .ok s.signature ∧
        headers' = { headers with drawn := headers.drawn + 1 } := by
  rw [signConfigUpdate]
  constructor
  · intro h
    obtain ⟨header, between, hheader, h⟩ := issuing_bind_ok.1 h
    obtain ⟨nonce, hnonce, rfl, rfl⟩ := newHeader_ok_iff.1 hheader
    obtain ⟨signature, between, hlift, h⟩ := issuing_bind_ok.1 h
    obtain ⟨hsign, rfl⟩ := issuing_lift_ok.1 hlift
    cases h
    exact ⟨nonce, hnonce, rfl, hsign, rfl⟩
  · rintro ⟨nonce, hnonce, hheader, hsign, rfl⟩
    obtain ⟨header, signature⟩ := s
    cases hheader
    refine issuing_bind_ok.2 ⟨_, _, newHeader_ok_iff.2 ⟨nonce, hnonce, rfl, rfl⟩, ?_⟩
    exact issuing_bind_ok.2 ⟨signature, _, issuing_lift_ok.2 ⟨hsign, rfl⟩, rfl⟩

/-- An envelope is signed over its payload, with a new header. -/
theorem signedEnvelope_ok_iff {headerType : HeaderType} {channelId : String} {data : Bytes}
    {tlsCertHash : Option Bytes} {headers headers' : HeaderSource} {envelope : Envelope} :
    signedEnvelope headerType channelId signer data tlsCertHash headers = .ok envelope headers' ↔
      ∃ nonce, signer.nonce headers.drawn = .ok nonce ∧
        envelope.payload = toWire (payloadUnder
          (plainChannelHeader headerType headers.time channelId tlsCertHash)
          ⟨signer.identity, nonce⟩ data) ∧
        signer.sign envelope.payload = .ok envelope.signature ∧
        headers' = { headers with drawn := headers.drawn + 1 } := by
  rw [signedEnvelope]
  constructor
  · intro h
    obtain ⟨header, between, hheader, h⟩ := issuing_bind_ok.1 h
    obtain ⟨nonce, hnonce, rfl, rfl⟩ := newHeader_ok_iff.1 hheader
    obtain ⟨source, between, hget, h⟩ := issuing_bind_ok.1 h
    cases hget
    obtain ⟨signature, between, hlift, h⟩ := issuing_bind_ok.1 h
    obtain ⟨hsign, rfl⟩ := issuing_lift_ok.1 hlift
    cases h
    exact ⟨nonce, hnonce, rfl, hsign, rfl⟩
  · rintro ⟨nonce, hnonce, hpayload, hsign, rfl⟩
    obtain ⟨payload, signature⟩ := envelope
    obtain rfl := hpayload
    refine issuing_bind_ok.2 ⟨_, _, newHeader_ok_iff.2 ⟨nonce, hnonce, rfl, rfl⟩, ?_⟩
    refine issuing_bind_ok.2 ⟨_, _, rfl, ?_⟩
    exact issuing_bind_ok.2 ⟨signature, _, issuing_lift_ok.2 ⟨hsign, rfl⟩, rfl⟩

/-- A total signer signs every update. -/
theorem Signer.Total.signConfigUpdate (h : signer.Total) (update : Bytes) (headers : HeaderSource) :
    ∃ s headers', signConfigUpdate signer update headers = .ok s headers' := by
  obtain ⟨nonce, hnonce⟩ := h.draws headers.drawn
  obtain ⟨signature, hsign⟩ := h.signs
    (toWire ({ creator := signer.identity, nonce } : SignatureHeader) ++ update)
  exact ⟨⟨_, signature⟩, _, signConfigUpdate_ok_iff.2 ⟨nonce, hnonce, rfl, hsign, rfl⟩⟩

/-- A total signer signs every envelope, and draws one nonce for it. -/
theorem Signer.Total.signedEnvelope (h : signer.Total) (headerType : HeaderType)
    (channelId : String) (data : Bytes) (tlsCertHash : Option Bytes) (headers : HeaderSource) :
    ∃ envelope, signedEnvelope headerType channelId signer data tlsCertHash headers =
      .ok envelope { headers with drawn := headers.drawn + 1 } := by
  obtain ⟨nonce, hnonce⟩ := h.draws headers.drawn
  obtain ⟨signature, hsign⟩ := h.signs (toWire (payloadUnder
    (plainChannelHeader headerType headers.time channelId tlsCertHash)
    ⟨signer.identity, nonce⟩ data))
  exact ⟨⟨_, signature⟩, signedEnvelope_ok_iff.2 ⟨nonce, hnonce, rfl, hsign, rfl⟩⟩

theorem decodeMessage_signatureHeader {header : SignatureHeader}
    (hcreator : header.creator.length < 2 ^ 32) (hnonce : header.nonce.length < 2 ^ 32) :
    decodeMessage SignatureHeader (toWire header) = .ok header := by
  have hfits : (schema SignatureHeader).Fits (pack header) := ⟨hcreator, hnonce, trivial⟩
  exact decodeMessage_toWire rfl hfits

/-- What a sound signer makes verifies for its organization. -/
theorem verifies_of_signConfigUpdate (hsigner : signer.Sound) {headers headers' : HeaderSource}
    {s : ConfigSignature} (h : signConfigUpdate signer update headers = .ok s headers') :
    s.Verifies update signer.orgId := by
  obtain ⟨nonce, hnonce, hheader, hsign, -⟩ := signConfigUpdate_ok_iff.1 h
  obtain ⟨key, hnamed⟩ := hsigner.named
  have hread : decodeMessage SignatureHeader s.signatureHeader = .ok ⟨signer.identity, nonce⟩ := by
    rw [hheader]
    exact decodeMessage_signatureHeader hsigner.identity_short (hsigner.nonce_short _ _ hnonce)
  exact ⟨_, _, hread, hnamed, rfl, hsigner.accepted _ _ hsign⟩

end LedgerClient
