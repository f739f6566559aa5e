import LedgerClient.Proofs.Update.Honest
import LedgerClient.Proofs.Wire.Canonical
/-!
# Checked updates

What `checkAndSign` accepts, and what becomes of the signatures on an update.

* `Envelope.IsUpdateFor`: an update for a channel can be read from the envelope.
  `exists_checkAndSign_iff`: these envelopes are accepted, for their own channel.
* `ConfigUpdateEnvelope.Names`: one of the signatures names an organization; it may be forged.
* `Signer.Contributes`: what a signer adds to the signatures.  `checkAndSign_contributes`: a checked
  envelope holds the same update with this added, and is read back if it is short enough.
* `checkAndSign_vouches_iff`: when the result holds a signature of the signer's organization that
  verifies.
* `checkAndSign_unvouched`: an update with a forged signature, to which no true one is added.
-/

namespace LedgerClient

variable {envelope signed : Envelope} {channelId id organization : String} {signer : Signer}
  {update : ConfigUpdateEnvelope} {headers headers' : HeaderSource} {s : ConfigSignature}
  {added : List ConfigSignature}

/-! ## Envelopes with an update -/

/-- Payload, channel header and update can be decoded, and the header is that of an update for the
channel. -/
def Envelope.IsUpdateFor (envelope : Envelope) (channelId : String)
    (update : ConfigUpdateEnvelope) : Prop :=
  ∃ payload header channelHeader, decodeMessage Payload envelope.payload = .ok payload ∧
    payload.header = some header ∧
    decodeMessage ChannelHeader header.channelHeader = .ok channelHeader ∧
    channelHeader.headerType = .configUpdate ∧ channelHeader.channelId = channelId ∧
    channelId ≠ "" ∧ decodeMessage ConfigUpdateEnvelope payload.data = .ok update

theorem updateIn_ok_iff_isUpdateFor : updateIn envelope id = .ok (channelId, update) ↔
    envelope.IsUpdateFor channelId update ∧ (id = "" ∨ id = channelId) := by
  rw [updateIn_ok_iff]
  constructor
  · rintro ⟨payload, header, channelHeader, hpayload, hheader, hchannel, htype, hname, hnonempty,
      hid, hupdate⟩
    exact ⟨⟨payload, header, channelHeader, hpayload, hheader, hchannel, htype, hname, hnonempty,
      hupdate⟩, hid⟩
  · rintro ⟨⟨payload, header, channelHeader, hpayload, hheader, hchannel, htype, hname, hnonempty,
      hupdate⟩, hid⟩
    exact ⟨payload, header, channelHeader, hpayload, hheader, hchannel, htype, hname, hnonempty,
      hid, hupdate⟩

/-- At most one update can be read from an envelope, for one channel. -/
theorem Envelope.IsUpdateFor.unique {channelId' : String} {update' : ConfigUpdateEnvelope}
    (h : envelope.IsUpdateFor channelId update) (h' : envelope.IsUpdateFor channelId' update') :
    channelId = channelId' ∧ update = update' := by
  have hread := updateIn_ok_iff_isUpdateFor.2 ⟨h, .inl rfl⟩
  rw [updateIn_ok_iff_isUpdateFor.2 ⟨h', .inl rfl⟩] at hread
  exact ⟨(Prod.mk.inj (Except.ok.inj hread)).1.symm, (Prod.mk.inj (Except.ok.inj hread)).2.symm⟩

theorem Envelope.IsUpdateFor.ne_empty (h : envelope.IsUpdateFor channelId update) :
    channelId ≠ "" := by
  obtain ⟨-, -, -, -, -, -, -, -, hnonempty, -⟩ := h
  exact hnonempty

/-- An update that an envelope holds is read from it. -/
theorem Envelope.Holds.isUpdateFor {time : Timestamp} {signatureHeader : Bytes}
    (h : envelope.Holds (plainChannelHeader .configUpdate time channelId none) signatureHeader
      update) (hnonempty : channelId ≠ "")
    (hchannel : 38 + (Utf8.encode channelId).length < 2 ^ 32)
    (hheader : signatureHeader.length < 2 ^ 32) (hupdate : (toWire update).length < 2 ^ 32) :
    envelope.IsUpdateFor channelId update := by
  have hshort : PartsShort (plainChannelHeader .configUpdate time channelId none) signatureHeader
      update := by
    refine ⟨?_, hheader, hupdate⟩
    rw [UpdateSession.length_plainChannelHeader]
    exact hchannel
  have hread : updateIn envelope "" = .ok (channelId, update) :=
    (updateIn_of_holds h hshort).2 ⟨rfl, rfl, hnonempty, .inl rfl, rfl⟩
  exact (updateIn_ok_iff_isUpdateFor.1 hread).1

/-- An unsigned envelope with an update. -/
def unsignedEnvelope (channelId : String) (update : ConfigUpdateEnvelope) : Envelope where
  payload := toWire ({
    header := some {
      channelHeader := toWire (plainChannelHeader .configUpdate ⟨0, 0⟩ channelId none)
      signatureHeader := [] }
    data := toWire update } : Payload)
  signature := []

theorem unsignedEnvelope_holds (channelId : String) (update : ConfigUpdateEnvelope) :
    (unsignedEnvelope channelId update).Holds
      (plainChannelHeader .configUpdate ⟨0, 0⟩ channelId none) [] update := rfl

/-- A channel header is longer than the name of its channel. -/
theorem le_length_channelHeader (header : ChannelHeader) :
    38 + (Utf8.encode header.channelId).length ≤ (toWire header).length := by
  have hwire : toWire header = (schema HeaderType).encode (pack header.headerType) ++
      (littleEndian 4 header.version.toUInt32.toNat ++
        ((schema Timestamp).encode (pack header.timestamp) ++ (encodeText header.channelId ++
          (encodeText header.txId ++ (littleEndian 8 header.epoch.toNat ++
            (encodeBytes header.extension ++
              ((schema (Option Bytes)).encode (pack header.tlsCertHash) ++ []))))))) := rfl
  have htime : (schema Timestamp).encode (pack header.timestamp) =
      littleEndian 8 header.timestamp.seconds.toUInt64.toNat ++
        (littleEndian 4 header.timestamp.nanos.toUInt32.toNat ++ []) := rfl
  have htype := Schema.length_encode_pos (s := schema HeaderType) rfl (c := pack header.headerType)
  have hhash := Schema.length_encode_pos (s := schema (Option Bytes)) rfl
    (c := pack header.tlsCertHash)
  rw [hwire, htime]
  simp only [List.length_append, length_littleEndian, length_encodeText, length_encodeBytes,
    List.length_nil]
  omega

/-- What was read from an envelope can be written again. -/
theorem Envelope.IsUpdateFor.short (h : envelope.IsUpdateFor channelId update) :
    38 + (Utf8.encode channelId).length < 2 ^ 32 ∧ (toWire update).length < 2 ^ 32 := by
  obtain ⟨payload, header, channelHeader, hpayload, hheader, hchannel, -, rfl, -, hupdate⟩ := h
  have hfits : (schema Payload).Fits (pack payload) :=
    (Schema.decode_canonical rfl (decode_of_fromWire (fromWire_of_decodeMessage hpayload))).1
  obtain ⟨found, data⟩ := payload
  obtain rfl : found = some header := hheader
  obtain ⟨⟨hshort, -, -⟩, hdata, -⟩ := hfits
  -- neither message has dictionaries, so both are written as the bytes that they were read from
  have hwire := toWire_of_dictFree rfl rfl (fromWire_of_decodeMessage hchannel)
  have hname := le_length_channelHeader channelHeader
  rw [hwire] at hname
  refine ⟨Nat.lt_of_le_of_lt hname hshort, ?_⟩
  rw [toWire_of_dictFree rfl rfl (fromWire_of_decodeMessage hupdate)]
  exact hdata

/-! ## Organizations that are named -/

/-- The signature names the organization as its maker, and no other. -/
def ConfigSignature.NamesOnly (s : ConfigSignature) (organization : String) : Prop :=
  ∀ other, s.isFrom other = true ↔ organization = other

/-- One of the signatures names the organization as its maker; the signature need not be good. -/
def ConfigUpdateEnvelope.Names (update : ConfigUpdateEnvelope) (organization : String) : Prop :=
  ∃ s ∈ update.signatures, s.isFrom organization = true

/-- One of the signatures verifies over the update for the organization. -/
def ConfigUpdateEnvelope.VouchedBy (update : ConfigUpdateEnvelope) (organization : String) : Prop :=
  ∃ s ∈ update.signatures, s.Verifies update.configUpdate organization

namespace ConfigUpdateEnvelope

/-- The update with more signatures. -/
def extend (update : ConfigUpdateEnvelope) (added : List ConfigSignature) : ConfigUpdateEnvelope :=
  { update with signatures := update.signatures ++ added }

@[simp] theorem extend_nil (update : ConfigUpdateEnvelope) : update.extend [] = update := by
  rw [extend, List.append_nil]

theorem extend_extend (update : ConfigUpdateEnvelope) (added more : List ConfigSignature) :
    (update.extend added).extend more = update.extend (added ++ more) := by
  rw [extend, extend, extend, List.append_assoc]

theorem names_extend : (update.extend added).Names organization ↔
    update.Names organization ∨ ∃ s ∈ added, s.isFrom organization = true := by
  simp only [Names, extend, List.mem_append, or_and_right, exists_or]

theorem vouchedBy_extend : (update.extend added).VouchedBy organization ↔
    update.VouchedBy organization ∨ ∃ s ∈ added, s.Verifies update.configUpdate organization := by
  simp only [VouchedBy, extend, List.mem_append, or_and_right, exists_or]

theorem length_toWire_extend (update : ConfigUpdateEnvelope) (added : List ConfigSignature) :
    (toWire (update.extend added)).length =
      (toWire update).length + (added.flatMap toWire).length := by
  have hlength (u : ConfigUpdateEnvelope) : (toWire u).length =
      (encodeBytes u.configUpdate).length + 4 + (u.signatures.flatMap toWire).length := by
    change (encodeBytes u.configUpdate ++ ((encodeCount (u.signatures.map pack).length ++
      (u.signatures.map pack).flatMap fun c => (schema ConfigSignature).encode c) ++ [])).length = _
    rw [List.append_nil, List.length_append, List.length_append, encodeCount, length_littleEndian,
      List.flatMap_map, Nat.add_assoc]
    rfl
  rw [hlength, hlength, extend, List.flatMap_append, List.length_append, ← Nat.add_assoc]

end ConfigUpdateEnvelope

/-! ## What a signer adds -/

/-- A signer whose identity names its organization, and whose headers are short enough to be
written. -/
structure Signer.Named (s : Signer) : Prop where
  named : ∃ key, decodeMessage SerializedIdentity s.identity = .ok ⟨s.orgId, key⟩
  header_short : ∀ n nonce, s.nonce n = .ok nonce →
    (toWire ({ creator := s.identity, nonce } : SignatureHeader)).length < 2 ^ 32

theorem Signer.Honest.toNamed (h : signer.Honest) : signer.Named :=
  ⟨h.toSound.named, h.header_short⟩

/-- A signature that a signer makes names its organization and no other. -/
theorem namesOnly_of_signConfigUpdate {configUpdate : Bytes} (hsigner : signer.Named)
    (h : signConfigUpdate signer configUpdate headers = .ok s headers') :
    s.NamesOnly signer.orgId := by
  obtain ⟨nonce, hnonce, hheader, -, -⟩ := signConfigUpdate_ok_iff.1 h
  obtain ⟨key, hnamed⟩ := hsigner.named
  have hread : decodeMessage SignatureHeader s.signatureHeader = .ok ⟨signer.identity, nonce⟩ := by
    rw [hheader]
    exact decodeMessage_of_length rfl rfl (hsigner.header_short _ _ hnonce)
  intro organization
  rw [ConfigSignature.isFrom, ConfigSignature.creator_ok_iff.2 ⟨_, hread, rfl, hnamed⟩]
  exact decide_eq_true_iff

/-- Nothing is added where the update names the organization of the signer, and otherwise one
signature that the signer makes. -/
def Signer.Contributes (signer : Signer) (update : ConfigUpdateEnvelope) (headers : HeaderSource)
    (added : List ConfigSignature) : Prop :=
  (update.Names signer.orgId ∧ added = []) ∨
    (¬update.Names signer.orgId ∧ ∃ s headers',
      signConfigUpdate signer update.configUpdate headers = .ok s headers' ∧ added = [s])

theorem Signer.Contributes.namesOnly (h : signer.Contributes update headers added)
    (hsigner : signer.Named) : ∀ s ∈ added, s.NamesOnly signer.orgId := by
  obtain ⟨-, rfl⟩ | ⟨-, s, headers', hmade, rfl⟩ := h
  · exact fun _ hs => (nomatch hs)
  · exact List.forall_mem_singleton.2 (namesOnly_of_signConfigUpdate hsigner hmade)

/-- After a check the update names the organization of the signer. -/
theorem Signer.Contributes.names (h : signer.Contributes update headers added)
    (hsigner : signer.Named) : (update.extend added).Names signer.orgId := by
  obtain ⟨hnamed, rfl⟩ | ⟨-, s, headers', hmade, rfl⟩ := h
  · rw [update.extend_nil]
    exact hnamed
  · have hnames := (namesOnly_of_signConfigUpdate hsigner hmade signer.orgId).2 rfl
    exact ConfigUpdateEnvelope.names_extend.2 (.inr ⟨s, List.mem_singleton_self s, hnames⟩)

theorem exists_completes_iff {completed : ConfigUpdateEnvelope} :
    (∃ headers', Completes signer update headers completed headers') ↔
      ∃ added, signer.Contributes update headers added ∧ completed = update.extend added := by
  have hany : update.signatures.any (·.isFrom signer.orgId) = true ↔ update.Names signer.orgId :=
    List.any_eq_true
  constructor
  · rintro ⟨headers', h⟩
    cases h with
    | present hpresent =>
      exact ⟨[], .inl ⟨hany.1 hpresent, rfl⟩, update.extend_nil.symm⟩
    | added habsent hsigned =>
      exact ⟨_, .inr ⟨mt hany.2 (Bool.eq_false_iff.1 habsent), _, _, hsigned, rfl⟩, rfl⟩
  · rintro ⟨added, ⟨hnamed, rfl⟩ | ⟨hunnamed, s, headers', hsigned, rfl⟩, rfl⟩
    · rw [update.extend_nil]
      exact ⟨headers, .present (hany.2 hnamed)⟩
    · exact ⟨headers', .added (Bool.eq_false_iff.2 (mt hany.1 hunnamed)) hsigned⟩

theorem Signer.Total.exists_contributes (h : signer.Total) (update : ConfigUpdateEnvelope)
    (headers : HeaderSource) : ∃ added, signer.Contributes update headers added := by
  by_cases hnamed : update.Names signer.orgId
  · exact ⟨[], .inl ⟨hnamed, rfl⟩⟩
  · obtain ⟨s, headers', hsigned⟩ := h.signConfigUpdate update.configUpdate headers
    exact ⟨[s], .inr ⟨hnamed, s, headers', hsigned, rfl⟩⟩

/-! ## One check -/

/-- The envelope that is made holds the update with what the signer adds. -/
theorem checkAndSign_holds (h : checkAndSign envelope signer id headers = .ok signed headers') :
    ∃ channel update added between, envelope.IsUpdateFor channel update ∧
      (id = "" ∨ id = channel) ∧ signer.Contributes update headers added ∧
      signedEnvelope .configUpdate channel signer (toWire (update.extend added)) none between =
        .ok signed headers' := by
  obtain ⟨channel, update, completed, between, hread, hcompletes, hsigned⟩ :=
    checkAndSign_ok_iff.1 h
  obtain ⟨hupdate, hid⟩ := updateIn_ok_iff_isUpdateFor.1 hread
  obtain ⟨added, hadded, rfl⟩ := exists_completes_iff.1 ⟨between, hcompletes⟩
  exact ⟨channel, update, added, between, hupdate, hid, hadded, hsigned⟩

/-- An envelope is accepted exactly if an update can be read from it, for the channel that is
meant. -/
theorem exists_checkAndSign_iff (hsigner : signer.Total) (envelope : Envelope) (id : String)
    (headers : HeaderSource) :
    (∃ signed headers', checkAndSign envelope signer id headers = .ok signed headers') ↔
      ∃ channel update, envelope.IsUpdateFor channel update ∧ (id = "" ∨ id = channel) := by
  constructor
  · rintro ⟨signed, headers', h⟩
    obtain ⟨channel, update, -, -, hupdate, hid, -⟩ := checkAndSign_holds h
    exact ⟨channel, update, hupdate, hid⟩
  · rintro ⟨channel, update, hupdate, hid⟩
    obtain ⟨added, hadded⟩ := hsigner.exists_contributes update headers
    obtain ⟨between, hcompletes⟩ := exists_completes_iff.2 ⟨added, hadded, rfl⟩
    obtain ⟨signed, hsigned⟩ := hsigner.signedEnvelope .configUpdate channel
      (toWire (update.extend added)) none between
    exact ⟨signed, _, checkAndSign_ok_iff.2 ⟨channel, update, _, between,
      updateIn_ok_iff_isUpdateFor.2 ⟨hupdate, hid⟩, hcompletes, hsigned⟩⟩

/-- An update in a signed envelope is read back. -/
theorem isUpdateFor_of_signedEnvelope (hsigner : signer.Named) (hnonempty : channelId ≠ "")
    (hchannel : 38 + (Utf8.encode channelId).length < 2 ^ 32)
    (hupdate : (toWire update).length < 2 ^ 32)
    (h : signedEnvelope .configUpdate channelId signer (toWire update) none headers =
      .ok signed headers') : signed.IsUpdateFor channelId update := by
  obtain ⟨nonce, hnonce, hpayload, -, -⟩ := signedEnvelope_ok_iff.1 h
  have hholds : signed.Holds (plainChannelHeader .configUpdate headers.time channelId none)
      (toWire ({ creator := signer.identity, nonce } : SignatureHeader)) update := hpayload
  exact hholds.isUpdateFor hnonempty hchannel (hsigner.header_short _ _ hnonce) hupdate

/-- A checked envelope is an update for the same channel, with what the signer has added. -/
theorem checkAndSign_contributes (hsigner : signer.Named)
    (hupdate : envelope.IsUpdateFor channelId update)
    (h : checkAndSign envelope signer id headers = .ok signed headers') :
    ∃ added, signer.Contributes update headers added ∧
      ((toWire (update.extend added)).length < 2 ^ 32 →
        signed.IsUpdateFor channelId (update.extend added)) := by
  obtain ⟨channel, found, added, between, hfound, -, hadded, hsigned⟩ := checkAndSign_holds h
  obtain ⟨rfl, rfl⟩ := hupdate.unique hfound
  exact ⟨added, hadded, fun hshort =>
    isUpdateFor_of_signedEnvelope hsigner hupdate.ne_empty hupdate.short.1 hshort hsigned⟩

/-- A signer whose organization is named makes a new envelope for the update as it is. -/
theorem exists_checkAndSign_of_names (hsigner : signer.Named) (htotal : signer.Total)
    (hread : envelope.IsUpdateFor channelId update) (hid : id = "" ∨ id = channelId)
    (hnames : update.Names signer.orgId) (headers : HeaderSource) :
    ∃ signed headers', checkAndSign envelope signer id headers = .ok signed headers' ∧
      signed.IsUpdateFor channelId update := by
  obtain ⟨signed, headers', hsigned⟩ :=
    (exists_checkAndSign_iff htotal envelope id headers).2 ⟨channelId, update, hread, hid⟩
  obtain ⟨added, hadded, hupdate⟩ := checkAndSign_contributes hsigner hread hsigned
  obtain rfl : added = [] := by
    obtain ⟨-, hnone⟩ | ⟨hunnamed, -⟩ := hadded
    · exact hnone
    · exact absurd hnames hunnamed
  rw [update.extend_nil] at hupdate
  exact ⟨signed, headers', hsigned, hupdate hread.short.2⟩

/-! ## Whose signatures a checked update holds -/

theorem Ed25519.length_of_verify {key message signature : Bytes}
    (h : Ed25519.verify key message signature = .ok ()) : signature.length = 64 := by
  rw [Ed25519.verify] at h
  split at h
  · cases h
  · split at h
    · cases h
    · dsimp only at h
      by_contra hlength
      rw [if_pos hlength] at h
      cases h

theorem ConfigSignature.Verifies.length_signature {configUpdate : Bytes}
    (h : s.Verifies configUpdate organization) : s.signature.length = 64 := by
  obtain ⟨header, identity, -, hidentity, -, hverify⟩ := h
  rw [verifySignature, hidentity] at hverify
  exact Ed25519.length_of_verify (mapError_ok_iff.1 hverify)

/-- The result holds a verified signature of the organizations of which the update has one.  It also
holds one of the signer's organization, unless a signature of the update names this organization:
whether that signature is good is not checked. -/
theorem checkAndSign_vouches_iff (hsigner : signer.Sound)
    (h : checkAndSign envelope signer id headers = .ok signed headers') :
    ∃ channel update completed, envelope.IsUpdateFor channel update ∧
      signed.Submits signer channel completed ∧
      completed.configUpdate = update.configUpdate ∧
      ∀ organization, completed.VouchedBy organization ↔
        update.VouchedBy organization ∨
          organization = signer.orgId ∧ ¬update.Names organization := by
  obtain ⟨channel, update, added, between, hupdate, -, hadded, hsigned⟩ := checkAndSign_holds h
  refine ⟨channel, update, update.extend added, hupdate,
    submits_of_signedEnvelope hsigner hupdate.ne_empty hsigned, rfl, fun organization => ?_⟩
  rw [ConfigUpdateEnvelope.vouchedBy_extend]
  refine or_congr_right ?_
  obtain ⟨hnamed, rfl⟩ | ⟨hunnamed, s, after, hmade, rfl⟩ := hadded
  · refine iff_of_false (fun ⟨_, hs, _⟩ => nomatch hs) ?_
    rintro ⟨rfl, hunnamed⟩
    exact hunnamed hnamed
  · have hverifies := verifies_of_signConfigUpdate hsigner hmade
    simp only [List.mem_singleton, exists_eq_left]
    constructor
    · intro hother
      obtain rfl := hother.unique hverifies
      exact ⟨rfl, hunnamed⟩
    · rintro ⟨rfl, -⟩
      exact hverifies

/-- An update without signatures gets one of the signer. -/
theorem checkAndSign_vouches_unsigned :
    let envelope := unsignedEnvelope "ch" ⟨[1, 2, 3], []⟩
    ∃ signed headers' completed, (neutralSigner "Org1MSP").Sound ∧
      checkAndSign envelope (neutralSigner "Org1MSP") "" epoch = .ok signed headers' ∧
      signed.Submits (neutralSigner "Org1MSP") "ch" completed ∧ completed.VouchedBy "Org1MSP" := by
  intro envelope
  have hhonest : (neutralSigner "Org1MSP").Honest := neutralSigner_honest (by decide)
  have hread : envelope.IsUpdateFor "ch" ⟨[1, 2, 3], []⟩ :=
    (unsignedEnvelope_holds _ _).isUpdateFor (by decide) (by decide) (by decide) (by decide)
  obtain ⟨signed, headers', hsigned⟩ :=
    (exists_checkAndSign_iff hhonest.toTotal envelope "" epoch).2 ⟨"ch", _, hread, .inl rfl⟩
  obtain ⟨channel, update, completed, hupdate, hsubmits, -, hvouched⟩ :=
    checkAndSign_vouches_iff hhonest.toSound hsigned
  obtain ⟨rfl, rfl⟩ := hread.unique hupdate
  refine ⟨signed, headers', completed, hhonest.toSound, hsigned, hsubmits, ?_⟩
  refine (hvouched "Org1MSP").2 (.inr ⟨rfl, ?_⟩)
  rintro ⟨s, hs, -⟩
  cases hs

/-- A header of the first organization with no signature beside it. -/
def forgedUpdate : ConfigUpdateEnvelope where
  configUpdate := [1, 2, 3]
  signatures := [{ neutralConfigSignature "Org1MSP" with signature := [] }]

/-- A signature that names the organization of the signer is taken for its own: the envelope is made
without a good one. -/
theorem checkAndSign_unvouched :
    ∃ signed headers' completed, (neutralSigner "Org1MSP").Honest ∧
      checkAndSign (unsignedEnvelope "ch" forgedUpdate) (neutralSigner "Org1MSP") "ch" epoch =
        .ok signed headers' ∧
      signed.IsUpdateFor "ch" completed ∧ ¬completed.VouchedBy "Org1MSP" := by
  have hhonest : (neutralSigner "Org1MSP").Honest := neutralSigner_honest (by decide)
  have hread : (unsignedEnvelope "ch" forgedUpdate).IsUpdateFor "ch" forgedUpdate :=
    (unsignedEnvelope_holds _ _).isUpdateFor (by decide) (by decide) (by decide) (by decide +kernel)
  have hnames : forgedUpdate.Names "Org1MSP" := ⟨_, List.mem_singleton_self _, by decide +kernel⟩
  obtain ⟨signed, headers', hsigned, hcompleted⟩ :=
    exists_checkAndSign_of_names hhonest.toNamed hhonest.toTotal hread (.inr rfl) hnames epoch
  refine ⟨signed, headers', forgedUpdate, hhonest, hsigned, hcompleted, ?_⟩
  rintro ⟨s, hs, hverifies⟩
  obtain rfl := List.mem_singleton.1 hs
  exact absurd hverifies.length_signature (by decide)

end LedgerClient
