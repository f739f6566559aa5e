import LedgerClient.Proofs.Update.Collecting
import Mathlib.Data.List.Forall2
import Mathlib.Data.List.Nodup
/-!
# Envelopes that submit an update

* `Envelope.Holds`: the payload of the envelope is a channel header, a signature header and an
  update.  `updateIn_of_holds`: the update is read back.
* `ConfigUpdateEnvelope.SignedOnceBy`: every signature on the update verifies, and they are of
  different organizations.
* `Completes`: what `checkAndSign` adds to an update; `checkAndSign_ok_iff`.
-/

namespace LedgerClient

variable {signer : Signer} {headers headers' : HeaderSource} {envelope : Envelope}
  {channelId : String} {update : ConfigUpdateEnvelope}

/-! ## Reading an update -/

/-- The channel that is meant by an id, in an envelope for a channel. -/
def channelMeant (id found : String) : String := if id.isEmpty then found else id

theorem updateIn_eq (envelope : Envelope) (id : String) :
    updateIn envelope id =
      decodeMessage Payload envelope.payload >>= fun payload =>
      match payload.header with
      | none => .error (.invalidArgument "bad header")
      | some header =>
        decodeMessage ChannelHeader header.channelHeader >>= fun channelHeader =>
        if channelHeader.headerType ≠ .configUpdate then
          .error (.invalidArgument s!"bad type {Enumeration.name channelHeader.headerType}")
        else if channelHeader.channelId.isEmpty then .error (.invalidArgument "empty channel id")
        else if channelHeader.channelId ≠ channelMeant id channelHeader.channelId then
          .error (.invalidArgument s!"mismatched channel name {channelHeader.channelId} != {
            channelMeant id channelHeader.channelId}")
        else decodeMessage ConfigUpdateEnvelope payload.data >>= fun update =>
          .ok (channelMeant id channelHeader.channelId, update) := by
  rw [updateIn]
  refine bind_congr fun payload => ?_
  cases payload.header with
  | none => rfl
  | some header =>
    refine bind_congr fun channelHeader => ?_
    rw [channelMeant]
    split
    · rfl
    · split
      · rfl
      · dsimp only
        split <;> split <;> rfl

theorem channelMeant_eq_iff {id found : String} :
    found = channelMeant id found ↔ id = "" ∨ id = found := by
  rw [channelMeant]
  by_cases hid : id.isEmpty = true
  · rw [if_pos hid]
    exact ⟨fun _ => .inl (String.isEmpty_iff.1 hid), fun _ => rfl⟩
  · rw [if_neg hid]
    exact ⟨fun h => .inr h.symm, fun h => (h.resolve_left (mt String.isEmpty_iff.2 hid)).symm⟩

/-- An update is read where payload, channel header and update can be decoded, the header is that
of an update for a channel, and the id does not name another channel. -/
theorem updateIn_ok_iff {id : String} :
    updateIn envelope id = .ok (channelId, update) ↔
      ∃ payload header channelHeader, decodeMessage Payload envelope.payload = .ok payload ∧
        payload.header = some header ∧
        decodeMessage ChannelHeader header.channelHeader = .ok channelHeader ∧
        channelHeader.headerType = .configUpdate ∧ channelHeader.channelId = channelId ∧
        channelId ≠ "" ∧ (id = "" ∨ id = channelId) ∧
        decodeMessage ConfigUpdateEnvelope payload.data = .ok update := by
  rw [updateIn_eq]
  constructor
  · intro h
    obtain ⟨payload, hpayload, h⟩ := except_bind_ok.1 h
    cases hheader : payload.header with
    | none =>
      rw [hheader] at h
      cases h
    | some header =>
      rw [hheader] at h
      obtain ⟨channelHeader, hchannel, h⟩ := except_bind_ok.1 h
      split at h
      · cases h
      rename_i htype
      split at h
      · cases h
      rename_i hnonempty
      split at h
      · cases h
      rename_i hmatch
      have hmeant := Decidable.not_not.1 hmatch
      obtain ⟨update', hupdate, h⟩ := except_bind_ok.1 h
      rw [← hmeant] at h
      cases h
      exact ⟨payload, header, channelHeader, hpayload, hheader, hchannel,
        Decidable.not_not.1 htype, rfl, mt String.isEmpty_iff.2 hnonempty,
        channelMeant_eq_iff.1 hmeant, hupdate⟩
  · rintro ⟨payload, header, channelHeader, hpayload, hheader, hchannel, htype, rfl, hnonempty,
      hid, hupdate⟩
    have hmeant := channelMeant_eq_iff.2 hid
    refine except_bind_ok.2 ⟨payload, hpayload, ?_⟩
    rw [hheader]
    refine except_bind_ok.2 ⟨channelHeader, hchannel, ?_⟩
    rw [if_neg (Decidable.not_not.2 htype), if_neg (mt String.isEmpty_iff.1 hnonempty),
      if_neg (Decidable.not_not.2 hmeant), ← hmeant]
    exact except_bind_ok.2 ⟨update, hupdate, rfl⟩

/-- The payload of the envelope: a channel header, the bytes of a signature header, an update. -/
def Envelope.Holds (envelope : Envelope) (channelHeader : ChannelHeader) (signatureHeader : Bytes)
    (update : ConfigUpdateEnvelope) : Prop :=
  envelope.payload = toWire ({
    header := some { channelHeader := toWire channelHeader, signatureHeader := signatureHeader }
    data := toWire update } : Payload)

/-- All parts are short enough for their lengths to be written. -/
structure PartsShort (channelHeader : ChannelHeader) (signatureHeader : Bytes)
    (update : ConfigUpdateEnvelope) : Prop where
  channelHeader : (toWire channelHeader).length < 2 ^ 32
  signatureHeader : signatureHeader.length < 2 ^ 32
  update : (toWire update).length < 2 ^ 32

/-- What an envelope holds is read back, if it is an update for a channel. -/
theorem updateIn_of_holds {channelHeader : ChannelHeader} {signatureHeader : Bytes}
    {held : ConfigUpdateEnvelope} (h : envelope.Holds channelHeader signatureHeader held)
    (hshort : PartsShort channelHeader signatureHeader held) {id : String} :
    updateIn envelope id = .ok (channelId, update) ↔
      channelHeader.headerType = .configUpdate ∧ channelHeader.channelId = channelId ∧
        channelId ≠ "" ∧ (id = "" ∨ id = channelId) ∧ update = held := by
  have hpayload : decodeMessage Payload envelope.payload = .ok {
      header := some { channelHeader := toWire channelHeader, signatureHeader := signatureHeader }
      data := toWire held } := by
    rw [h]
    exact decodeMessage_toWire rfl
      ⟨⟨hshort.channelHeader, hshort.signatureHeader, trivial⟩, hshort.update, trivial⟩
  have hheader : decodeMessage ChannelHeader (toWire channelHeader) = .ok channelHeader :=
    decodeMessage_of_length rfl rfl hshort.channelHeader
  have hupdate : decodeMessage ConfigUpdateEnvelope (toWire held) = .ok held :=
    decodeMessage_of_length rfl rfl hshort.update
  rw [updateIn_ok_iff]
  constructor
  · rintro ⟨payload, header, channelHeader', hp, hh, hc, htype, hchannel, hnonempty, hid, hu⟩
    rw [hpayload] at hp
    cases hp
    cases hh
    rw [hheader] at hc
    cases hc
    rw [hupdate] at hu
    cases hu
    exact ⟨htype, hchannel, hnonempty, hid, rfl⟩
  · rintro ⟨htype, hchannel, hnonempty, hid, rfl⟩
    exact ⟨_, _, channelHeader, hpayload, rfl, hheader, htype, hchannel, hnonempty, hid, hupdate⟩

/-! ## Signing the whole -/

/-- The update with the signature of the signer's organization: the update as it is, if one of its
signatures names the organization, or else with one more signature. -/
inductive Completes (signer : Signer) (update : ConfigUpdateEnvelope) (headers : HeaderSource) :
    ConfigUpdateEnvelope → HeaderSource → Prop
  | present : update.signatures.any (·.isFrom signer.orgId) = true →
      Completes signer update headers update headers
  | added {signature : ConfigSignature} {headers' : HeaderSource} :
      update.signatures.any (·.isFrom signer.orgId) = false →
      signConfigUpdate signer update.configUpdate headers = .ok signature headers' →
      Completes signer update headers
        { update with signatures := update.signatures ++ [signature] } headers'

theorem Completes.configUpdate {completed : ConfigUpdateEnvelope}
    (h : Completes signer update headers completed headers') :
    completed.configUpdate = update.configUpdate := by
  cases h with
  | present => rfl
  | added => rfl

theorem Completes.time {completed : ConfigUpdateEnvelope}
    (h : Completes signer update headers completed headers') : headers'.time = headers.time := by
  cases h with
  | present => rfl
  | added _ hsigned =>
    obtain ⟨nonce, -, -, -, rfl⟩ := signConfigUpdate_ok_iff.1 hsigned
    rfl

/-- The envelope of a checked update carries the completed update for the same channel. -/
theorem checkAndSign_ok_iff {signed : Envelope} {id : String} :
    checkAndSign envelope signer id headers = .ok signed headers' ↔
      ∃ channel update completed between, updateIn envelope id = .ok (channel, update) ∧
        Completes signer update headers completed between ∧
        signedEnvelope .configUpdate channel signer (toWire completed) none between =
          .ok signed headers' := by
  rw [checkAndSign]
  constructor
  · intro h
    obtain ⟨⟨channel, update⟩, between, hlift, hrest⟩ := issuing_bind_ok.1 h
    obtain ⟨hupdate, rfl⟩ := issuing_lift_ok.1 hlift
    dsimp only at hrest
    split at hrest
    · rename_i hpresent
      exact ⟨channel, update, update, _, hupdate, .present hpresent, hrest⟩
    · rename_i habsent
      obtain ⟨signature, after, hsignature, hsigned⟩ := issuing_bind_ok.1 hrest
      exact ⟨channel, update, _, after, hupdate, .added (Bool.eq_false_iff.2 habsent) hsignature,
        hsigned⟩
  · rintro ⟨channel, update, completed, between, hupdate, hcompletes, hsigned⟩
    refine issuing_bind_ok.2 ⟨(channel, update), headers, issuing_lift_ok.2 ⟨hupdate, rfl⟩, ?_⟩
    dsimp only
    cases hcompletes with
    | present hpresent =>
      rw [if_pos hpresent]
      exact hsigned
    | added habsent hsignature =>
      rw [if_neg (Bool.eq_false_iff.1 habsent)]
      exact issuing_bind_ok.2 ⟨_, _, hsignature, hsigned⟩

/-! ## Signatures of different organizations -/

/-- Every signature verifies over the update, each for one of different organizations. -/
structure ConfigUpdateEnvelope.SignedOnceBy (update : ConfigUpdateEnvelope)
    (organizations : List String) : Prop where
  verifies : List.Forall₂ (fun s o => s.Verifies update.configUpdate o) update.signatures
    organizations
  distinct : organizations.Nodup

theorem ConfigUpdateEnvelope.SignedOnceBy.isFrom_iff {organizations : List String}
    (h : update.SignedOnceBy organizations) {organization : String} :
    update.signatures.any (·.isFrom organization) = true ↔ organization ∈ organizations := by
  have hany : ∀ {l : List ConfigSignature} {m : List String},
      List.Forall₂ (fun s o => s.Verifies update.configUpdate o) l m →
      (l.any (·.isFrom organization) = true ↔ organization ∈ m) := by
    intro l m hforall
    induction hforall with
    | nil => exact ⟨fun h => (nomatch h), fun h => (nomatch h)⟩
    | cons hhead _ ih =>
      rw [List.any_cons, Bool.or_eq_true, hhead.isFrom_iff, ih, List.mem_cons, eq_comm]
  exact hany h.verifies

/-- A completed update is signed by the organizations that have signed it, and by the signer's
organization. -/
theorem Completes.signedOnceBy {completed : ConfigUpdateEnvelope} {organizations : List String}
    (h : Completes signer update headers completed headers') (hsigner : signer.Sound)
    (hupdate : update.SignedOnceBy organizations) :
    completed.SignedOnceBy (if signer.orgId ∈ organizations then organizations
      else organizations ++ [signer.orgId]) := by
  cases h with
  | present hpresent =>
    rw [if_pos (hupdate.isFrom_iff.1 hpresent)]
    exact hupdate
  | added habsent hsigned =>
    have hnew : signer.orgId ∉ organizations :=
      mt hupdate.isFrom_iff.2 (Bool.eq_false_iff.1 habsent)
    rw [if_neg hnew]
    refine ⟨?_, ?_⟩
    · exact List.rel_append hupdate.verifies
        (.cons (verifies_of_signConfigUpdate hsigner hsigned) .nil)
    · refine List.nodup_append.2 ⟨hupdate.distinct, List.nodup_singleton _, ?_⟩
      intro a ha b hb
      rw [List.mem_singleton.1 hb]
      rintro rfl
      exact hnew ha

/-- A session whose signatures verify makes an update that is signed by its organizations. -/
theorem UpdateSession.Verified.signedOnceBy {s : UpdateSession} (h : s.Verified) :
    s.message.SignedOnceBy s.signatures.keys := by
  refine ⟨?_, s.signatures.nodup_keys⟩
  rw [UpdateSession.message, Dict.keys, List.forall₂_map_left_iff, List.forall₂_map_right_iff,
    List.forall₂_same]
  exact fun e he => h e.1 e.2 (Dict.get?_eq_some_iff.2 he)

end LedgerClient
