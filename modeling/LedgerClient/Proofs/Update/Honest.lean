import LedgerClient.Proofs.Update.Submission
/-!
# Honest signatures

What honest signers make of a proposal is merged and submitted, in whatever order it comes.

* `Signer.Honest`: a sound signer that never fails and whose signatures can be written.
  `Signer.ofKey_honest`: the signers of keys are honest.
* `ProposalSignature.IsOf`: a signature of an organization on a proposal.
  `Signer.Honest.signProposed`: this is what an honest signer makes.
* `signProposed_ok_iff`, `propose_ok_iff`: what signing and proposing make.
* `MembershipProposal.exists_collect`: signatures of different organizations are merged, and the
  session then stores one of each.
* `MembershipProposal.exists_submission`: the submission carries what has been merged, and nothing
  else.
-/

namespace LedgerClient

variable {signer : Signer} {headers : HeaderSource} {organization : String} {proposal : Bytes}

/-! ## Signers -/

/-- A sound signer that never fails.  Its headers and signatures are short enough for their lengths
to be written; longer ones have no encoding. -/
structure Signer.Honest (s : Signer) : Prop extends s.Sound, s.Total where
  header_short : ∀ n nonce, s.nonce n = .ok nonce →
    (toWire ({ creator := s.identity, nonce } : SignatureHeader)).length < 2 ^ 32
  signature_short : ∀ message signature, s.sign message = .ok signature →
    signature.length < 2 ^ 32

theorem length_signatureHeader (creator nonce : Bytes) :
    (toWire ({ creator, nonce } : SignatureHeader)).length = creator.length + nonce.length + 8 := by
  change (encodeBytes creator ++ (encodeBytes nonce ++ [])).length = _
  rw [List.append_nil, List.length_append, length_encodeBytes, length_encodeBytes]
  omega

theorem length_sign (key : Ed25519.SecretKey) (message : Bytes) :
    (key.sign message).length = 64 := by
  rw [Ed25519.SecretKey.sign, List.length_append, Curve.Point.toBytes, length_littleEndian,
    length_littleEndian]

/-- A sound and total signer with nonces and signatures of the usual lengths is honest. -/
theorem Signer.Sound.honest (hsound : signer.Sound) (htotal : signer.Total)
    (hidentity : signer.identity.length < 2 ^ 31)
    (hnonces : ∀ n nonce, signer.nonce n = .ok nonce → nonce.length = nonceSize)
    (hsignatures : ∀ message signature, signer.sign message = .ok signature →
      signature.length = 64) : signer.Honest where
  toSound := hsound
  toTotal := htotal
  header_short := by
    intro n nonce hnonce
    have hsize : nonceSize = 24 := rfl
    rw [length_signatureHeader, hnonces n nonce hnonce, hsize]
    omega
  signature_short := by
    intro message signature hsign
    rw [hsignatures message signature hsign]
    decide

/-- The signer of a key is honest if what the key signs is accepted. -/
theorem Signer.ofKey_honest {key : Ed25519.SecretKey} {nonces : Nat → Bytes}
    (hcorrect : ∀ message, Ed25519.verify key.publicKey message (key.sign message) = .ok ())
    (hidentity : (identityOf organization key.publicKey).length < 2 ^ 31)
    (hnonces : ∀ n, (nonces n).length = nonceSize) :
    (Signer.ofKey organization key nonces).Honest := by
  have hsound : (Signer.ofKey organization key nonces).Sound :=
    ofKey_sound hcorrect (hidentity.trans (by decide)) fun n => by
      rw [hnonces]
      decide
  refine hsound.honest ⟨fun _ => ⟨_, rfl⟩, fun _ => ⟨_, rfl⟩⟩ hidentity ?_ ?_
  · intro n nonce hnonce
    cases hnonce
    exact hnonces n
  · intro message signature hsign
    cases hsign
    exact length_sign key message

theorem neutralSigner_honest
    (h : (identityOf organization Ed25519.neutralKey).length < 2 ^ 31) :
    (neutralSigner organization).Honest := by
  have hsound := neutralSigner_sound (h.trans (by decide))
  refine hsound.honest ⟨fun _ => ⟨_, rfl⟩, fun _ => ⟨_, rfl⟩⟩ h ?_ ?_
  · intro n nonce hnonce
    cases hnonce
    exact List.length_replicate
  · intro message signature hsign
    cases hsign
    rfl

/-- An honest signer signs every update, and the signature is read back. -/
theorem Signer.Honest.signConfigUpdate (h : signer.Honest) (update : Bytes)
    (headers : HeaderSource) :
    ∃ s headers', signConfigUpdate signer update headers = .ok s headers' ∧
      s.Verifies update signer.orgId ∧ decodeMessage ConfigSignature (toWire s) = .ok s := by
  obtain ⟨s, headers', hsigned⟩ := h.toTotal.signConfigUpdate update headers
  obtain ⟨nonce, hnonce, hheader, hsign, -⟩ := signConfigUpdate_ok_iff.1 hsigned
  have hshort : s.signatureHeader.length < 2 ^ 32 := by
    rw [hheader]
    exact h.header_short _ _ hnonce
  have hfits : (schema ConfigSignature).Fits (pack s) :=
    ⟨hshort, h.signature_short _ _ hsign, trivial⟩
  exact ⟨s, headers', hsigned, verifies_of_signConfigUpdate h.toSound hsigned,
    decodeMessage_toWire rfl hfits⟩

/-! ## Signatures on a proposal -/

/-- The signature belongs to the proposal, names the organization and verifies for it. -/
def ProposalSignature.IsOf (x : ProposalSignature) (proposal : Bytes) (organization : String) :
    Prop :=
  x.creator = organization ∧ ∃ signature, x.Yields (hashOf proposal) proposal organization signature

theorem signProposed_ok_iff {headers' : HeaderSource} {x : ProposalSignature} :
    signProposed signer proposal headers = .ok x headers' ↔
      ∃ s, signConfigUpdate signer proposal headers = .ok s headers' ∧
        x = ⟨hashOf proposal, signer.orgId, toWire s⟩ := by
  rw [signProposed, issuing_bind_ok]
  constructor
  · rintro ⟨s, between, hsigned, h⟩
    cases h
    exact ⟨s, hsigned, rfl⟩
  · rintro ⟨s, hsigned, rfl⟩
    exact ⟨s, headers', hsigned, rfl⟩

/-- An honest signer signs every proposal for its organization. -/
theorem Signer.Honest.signProposed (h : signer.Honest) (proposal : Bytes)
    (headers : HeaderSource) :
    ∃ x headers', signProposed signer proposal headers = .ok x headers' ∧
      x.IsOf proposal signer.orgId := by
  obtain ⟨s, headers', hsigned, hverifies, hread⟩ := h.signConfigUpdate proposal headers
  exact ⟨_, headers', signProposed_ok_iff.2 ⟨s, hsigned, rfl⟩, rfl, s, rfl, hread, hverifies⟩

/-- A change is proposed if it can be applied, its difference can be computed, and the signer signs
the bytes of this difference. -/
theorem propose_ok_iff {channelId : String} {config : Config} {change : ConfigChange}
    {computer : DeltaComputer} {p : MembershipProposal} {headers' : HeaderSource} :
    propose signer channelId config change computer headers = .ok p headers' ↔
      ∃ updated delta x, change.apply config = .ok updated ∧
        computer channelId config updated = .ok delta ∧
        signProposed signer (toWire delta) headers = .ok x headers' ∧
        p = ⟨channelId, toWire delta, x⟩ := by
  rw [propose, issuing_bind_ok]
  constructor
  · rintro ⟨updated, between, hchanged, hcompute⟩
    obtain ⟨happly, rfl⟩ := issuing_lift_ok.1 hchanged
    obtain ⟨delta, after, hcomputed, hsign⟩ := issuing_bind_ok.1 hcompute
    obtain ⟨hdelta, rfl⟩ := issuing_lift_ok.1 hcomputed
    obtain ⟨x, last, hsigned, hmade⟩ := issuing_bind_ok.1 hsign
    cases hmade
    exact ⟨updated, delta, x, happly, hdelta, hsigned, rfl⟩
  · rintro ⟨updated, delta, x, happly, hdelta, hsigned, rfl⟩
    refine ⟨updated, headers, issuing_lift_ok.2 ⟨happly, rfl⟩, ?_⟩
    refine issuing_bind_ok.2 ⟨delta, headers, issuing_lift_ok.2 ⟨hdelta, rfl⟩, ?_⟩
    exact issuing_bind_ok.2 ⟨x, headers', hsigned, rfl⟩

/-- An honest sponsor proposes every change that can be applied and whose difference can be
computed. -/
theorem Signer.Honest.propose (h : signer.Honest) {config updated : Config}
    {change : ConfigChange} {computer : DeltaComputer} {channelId : String} {delta : ConfigUpdate}
    (happly : change.apply config = .ok updated)
    (hdelta : computer channelId config updated = .ok delta) (headers : HeaderSource) :
    ∃ p headers', propose signer channelId config change computer headers = .ok p headers' ∧
      p.channelId = channelId ∧ p.proposal = toWire delta ∧
      p.sponsor.IsOf p.proposal signer.orgId := by
  obtain ⟨x, headers', hsigned, hof⟩ := h.signProposed (toWire delta) headers
  exact ⟨_, headers', propose_ok_iff.2 ⟨updated, delta, x, happly, hdelta, hsigned, rfl⟩, rfl, rfl,
    hof⟩

/-! ## Merging -/

/-- Entries under different keys make a dictionary. -/
theorem Dict.exists_get?_iff {α : Type} {l : List (String × α)} (h : (l.map (·.1)).Nodup) :
    ∃ d : Dict α, ∀ k v, d.get? k = some v ↔ (k, v) ∈ l := by
  induction l with
  | nil => exact ⟨.empty, fun k v => ⟨fun h => (nomatch h), fun h => (nomatch h)⟩⟩
  | cons e l ih =>
    obtain ⟨hnew, hrest⟩ := List.nodup_cons.1 h
    obtain ⟨d, hd⟩ := ih hrest
    refine ⟨d.insert e.1 e.2, fun k v => ?_⟩
    rw [Dict.get?_insert, List.mem_cons]
    by_cases hk : k = e.1
    · subst hk
      have habsent : (e.1, v) ∉ l := fun hmem => hnew (List.mem_map.2 ⟨_, hmem, rfl⟩)
      rw [if_pos rfl, Option.some.injEq, or_iff_left habsent, Prod.ext_iff, eq_comm]
      exact (and_iff_right rfl).symm
    · rw [if_neg hk, hd, or_iff_right]
      rintro rfl
      exact hk rfl

/-- Signatures on a proposal yield one signature for each of their organizations. -/
theorem exists_entries {signatures : List ProposalSignature} {organizations : List String}
    (h : List.Forall₂ (fun x o => x.IsOf proposal o) signatures organizations) :
    ∃ l : List (String × ConfigSignature), l.map (·.1) = organizations ∧
      (∀ x ∈ signatures, ∃ o g, x.Yields (hashOf proposal) proposal o g) ∧
      ∀ o g, (o, g) ∈ l ↔ ∃ x ∈ signatures, x.Yields (hashOf proposal) proposal o g := by
  induction h with
  | nil =>
    exact ⟨[], rfl, fun _ h => (nomatch h), fun o g =>
      ⟨fun h => (nomatch h), fun ⟨_, h, _⟩ => (nomatch h)⟩⟩
  | cons hhead _ ih =>
    rename_i x organization signatures organizations _
    obtain ⟨-, signature, hyields⟩ := hhead
    obtain ⟨l, hl, hall, hmem⟩ := ih
    refine ⟨(organization, signature) :: l, congrArg (organization :: ·) hl,
      List.forall_mem_cons.2 ⟨⟨organization, signature, hyields⟩, hall⟩, fun o g => ?_⟩
    rw [List.mem_cons, List.exists_mem_cons_iff, hmem, Prod.mk.injEq]
    refine or_congr_left ?_
    constructor
    · rintro ⟨rfl, rfl⟩
      exact hyields
    · exact fun h => h.unique hyields

namespace MembershipProposal

variable {p : MembershipProposal} {signatures given : List ProposalSignature}
  {organizations : List String}

/-- Signatures of the sponsor and of different other organizations are merged in any order. -/
theorem exists_collect (hsponsor : p.sponsor.IsOf p.proposal signer.orgId)
    (hothers : List.Forall₂ (fun x o => x.IsOf p.proposal o) signatures organizations)
    (hdistinct : (signer.orgId :: organizations).Nodup) (hgiven : given.Perm signatures) :
    ∃ s, p.collect signer given = .ok s ∧
      s.signatures.keys.Perm (signer.orgId :: organizations) := by
  obtain ⟨l, hl, hall, hmem⟩ := exists_entries (.cons hsponsor hothers)
  obtain ⟨d, hd⟩ := Dict.exists_get?_iff (l := l) (by rw [hl]; exact hdistinct)
  have hperm : (p.sponsor :: given).Perm (p.sponsor :: signatures) := hgiven.cons _
  obtain ⟨hcreator, -, hhash, -⟩ := hsponsor
  let s : UpdateSession := { channelId := p.channelId, configUpdate := p.proposal, signatures := d }
  refine ⟨s, collect_ok_iff.2 ⟨⟨hcreator, hhash, fun x hx => hall x (hperm.mem_iff.1 hx)⟩,
    rfl, rfl, fun o g => ?_⟩, ?_⟩
  · have hnone : ¬(UpdateSession.start p.channelId p.proposal).signatures.get? o = some g :=
      fun h => (nomatch h)
    rw [or_iff_right hnone, hd, hmem]
    exact exists_congr fun x => and_congr_left fun _ => hperm.mem_iff.symm
  · refine (List.perm_ext_iff_of_nodup d.nodup_keys hdistinct).2 fun o => ?_
    rw [Dict.mem_keys_iff, ← hl, List.mem_map]
    constructor
    · rintro ⟨g, hg⟩
      exact ⟨(o, g), (hd o g).1 hg, rfl⟩
    · rintro ⟨⟨o, g⟩, he, rfl⟩
      exact ⟨g, (hd o g).2 he⟩

/-- Where an honest submitter is among the organizations whose signatures were merged, the envelope
carries what was merged, and the receiver reads it back. -/
theorem exists_submission (hsigner : signer.Honest) (hwritable : p.Writable signer given)
    (hchannel : p.channelId ≠ "") {s : UpdateSession} (hs : p.collect signer given = .ok s)
    (hmem : signer.orgId ∈ s.signatures.keys) (headers : HeaderSource) :
    ∃ envelope headers', p.submission signer given headers = .ok envelope headers' ∧
      envelope.Submits signer p.channelId s.message ∧
      updateIn envelope "" = .ok (p.channelId, s.message) := by
  have hpresent := (verified_of_collect hs).signedOnceBy.isFrom_iff.2 hmem
  obtain ⟨envelope, hsigned⟩ := hsigner.toTotal.signedEnvelope .configUpdate p.channelId
    (toWire s.message) none headers
  obtain ⟨nonce, hnonce, hpayload, -, -⟩ := signedEnvelope_ok_iff.1 hsigned
  have hparts : PartsShort (plainChannelHeader .configUpdate headers.time p.channelId none)
      (toWire ({ creator := signer.identity, nonce } : SignatureHeader)) s.message := by
    have hheader := (hwritable s hs).header headers.time
    rw [(collect_ok_iff.1 hs).2.channelId] at hheader
    exact ⟨hheader, hsigner.header_short _ _ hnonce, (hwritable s hs).message⟩
  refine ⟨envelope, _, (submission_ok_iff hwritable).2
    ⟨s, s.message, headers, hs, hchannel, .present hpresent, hsigned⟩,
    submits_of_signedEnvelope hsigner.toSound hchannel hsigned, ?_⟩
  exact (updateIn_of_holds hpayload hparts).2 ⟨rfl, rfl, hchannel, .inl rfl, rfl⟩

end MembershipProposal

end LedgerClient
