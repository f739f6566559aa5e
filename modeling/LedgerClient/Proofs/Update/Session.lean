import LedgerClient.Proofs.Update.Signing
/-!
# Sessions that collect signatures

* `Effect`: what a call that succeeds does to a session.  `perform_ok_iff`: the calls do
  this and nothing else.  `eq_of_perform_error`: a call that fails does nothing.
* `Extends`: the update stays what it is, and what has been stored stays stored.
  `extends_after`: this holds of every sequence of calls.
* `Verified`: what is stored for an organization verifies for it.  `verified_after`:
  this holds of every sequence of calls as long as the signers are sound.
-/

namespace LedgerClient

/-- A call on a session, and the source of headers that a signer starts from. -/
inductive SessionCall where
  | signBy (signer : Signer) (headers : HeaderSource)
  | addSignature (signature : ConfigSignature)

/-- The signer of a call, if there is one, is sound. -/
def SessionCall.Sound : SessionCall → Prop
  | .signBy signer _ => signer.Sound
  | .addSignature _ => True

namespace UpdateSession

variable {s s' : UpdateSession} {signer : Signer} {headers headers' : HeaderSource}
  {signature : ConfigSignature} {organization : String} {call : SessionCall}

/-- How a call ends and what session it leaves. -/
def perform (s : UpdateSession) : SessionCall → EStateM.Result ClientError UpdateSession Unit
  | .signBy signer headers =>
    match Collecting.signBy signer (s, headers) with
    | .ok () (s', _) => .ok () s'
    | .error e (s', _) => .error e s'
  | .addSignature signature => Collecting.addSignature signature s

/-- The session that a call leaves, whether it succeeds or fails. -/
def next (s : UpdateSession) (call : SessionCall) : UpdateSession :=
  match s.perform call with
  | .ok () s' => s'
  | .error _ s' => s'

/-- The session after calls. -/
def after (s : UpdateSession) (calls : List SessionCall) : UpdateSession :=
  calls.foldl next s

/-- The session with the signature of one more organization. -/
structure Adds (s : UpdateSession) (organization : String) (signature : ConfigSignature)
    (s' : UpdateSession) : Prop where
  channelId : s'.channelId = s.channelId
  configUpdate : s'.configUpdate = s.configUpdate
  absent : s.signatures.get? organization = none
  stored : ∀ other, s'.signatures.get? other =
    if other = organization then some signature else s.signatures.get? other

theorem adds_iff : s.Adds organization signature s' ↔
    s.signatures.get? organization = none ∧ s' = s.store organization signature := by
  constructor
  · rintro ⟨hchannel, hupdate, habsent, hstored⟩
    obtain ⟨channelId, configUpdate, signatures⟩ := s'
    obtain rfl : channelId = s.channelId := hchannel
    obtain rfl : configUpdate = s.configUpdate := hupdate
    obtain rfl : signatures = s.signatures.insert organization signature :=
      Dict.ext_get? fun other => (hstored other).trans (Dict.get?_insert _ _ _ _).symm
    exact ⟨habsent, rfl⟩
  · rintro ⟨habsent, rfl⟩
    exact ⟨rfl, rfl, habsent, fun other => Dict.get?_insert _ _ other _⟩

/-! ## One call -/

theorem signBy_apply (signer : Signer) (s : UpdateSession) (headers : HeaderSource) :
    Collecting.signBy signer (s, headers) =
      if s.signatures.contains signer.orgId then
        .error (.alreadySigned signer.orgId) (s, headers)
      else match signConfigUpdate signer s.configUpdate headers with
        | .ok signature headers' => .ok () (s.store signer.orgId signature, headers')
        | .error e headers' => .error e (s, headers') := by
  change (if s.signatures.contains signer.orgId = true then _ else _ :
    EStateM ClientError (UpdateSession × HeaderSource) Unit) (s, headers) = _
  by_cases hpresent : s.signatures.contains signer.orgId = true
  · rw [if_pos hpresent, if_pos hpresent]
    rfl
  · rw [if_neg hpresent, if_neg hpresent]
    cases signConfigUpdate signer s.configUpdate headers <;> rfl

theorem contains_iff : s.signatures.contains organization = true ↔
    s.signatures.get? organization ≠ none := by
  rw [Dict.contains, Option.isSome_iff_ne_none]

theorem signBy_ok_iff :
    Collecting.signBy signer (s, headers) = .ok () (s', headers') ↔
      ∃ signature, signConfigUpdate signer s.configUpdate headers = .ok signature headers' ∧
        s.Adds signer.orgId signature s' := by
  simp only [adds_iff, signBy_apply]
  by_cases hpresent : s.signatures.contains signer.orgId = true
  · rw [if_pos hpresent]
    constructor
    · intro h
      cases h
    · rintro ⟨_, -, habsent, -⟩
      exact absurd habsent (contains_iff.1 hpresent)
  · have habsent := Decidable.not_not.1 fun h => hpresent (contains_iff.2 h)
    rw [if_neg hpresent]
    cases hsigned : signConfigUpdate signer s.configUpdate headers with
    | ok signature between =>
      constructor
      · intro h
        cases h
        exact ⟨signature, rfl, habsent, rfl⟩
      · rintro ⟨_, hsame, -, rfl⟩
        cases hsame
        rfl
    | error e between =>
      constructor
      · intro h
        cases h
      · rintro ⟨_, hsame, -⟩
        cases hsame

theorem eq_of_signBy_error {e : ClientError}
    (h : Collecting.signBy signer (s, headers) = .error e (s', headers')) : s' = s := by
  rw [signBy_apply] at h
  split at h
  · cases h
    rfl
  · split at h
    · cases h
    · cases h
      rfl

theorem addSignature_apply (signature : ConfigSignature) (s : UpdateSession) :
    Collecting.addSignature signature s =
      match verifyConfigSignature signature s.configUpdate with
      | .error e => .error e s
      | .ok organization =>
        match s.signatures.get? organization with
        | some existing =>
          if existing = signature then .ok () s else .error (.alreadySigned organization) s
        | none => .ok () (s.store organization signature) := by
  rw [Collecting.addSignature]
  change EStateM.bind _ _ _ = _
  rw [EStateM.bind]
  dsimp only [get, getThe, MonadStateOf.get, EStateM.get]
  cases verifyConfigSignature signature s.configUpdate with
  | error e => rfl
  | ok organization =>
    dsimp only
    cases s.signatures.get? organization with
    | none => rfl
    | some existing =>
      dsimp only
      by_cases hsame : existing = signature
      · rw [if_pos hsame, if_neg (not_not.2 hsame)]
        rfl
      · rw [if_neg hsame, if_pos hsame]
        rfl

theorem addSignature_eq_ok_iff :
    Collecting.addSignature signature s = .ok () s' ↔
      ∃ organization, signature.Verifies s.configUpdate organization ∧
        (s.Adds organization signature s' ∨
          (s.signatures.get? organization = some signature ∧ s' = s)) := by
  simp only [adds_iff, ← verifyConfigSignature_ok_iff, addSignature_apply]
  cases hverify : verifyConfigSignature signature s.configUpdate with
  | error e =>
    constructor
    · intro h
      cases h
    · rintro ⟨_, h, -⟩
      cases h
  | ok organization =>
    dsimp only
    cases hget : s.signatures.get? organization with
    | none =>
      constructor
      · intro h
        cases h
        exact ⟨organization, rfl, .inl ⟨hget, rfl⟩⟩
      · rintro ⟨_, h, ⟨-, rfl⟩ | ⟨hstored, -⟩⟩
        · cases h
          rfl
        · cases h
          rw [hget] at hstored
          cases hstored
    | some existing =>
      dsimp only
      constructor
      · intro h
        split at h
        · rename_i hsame
          cases h
          exact ⟨organization, rfl, .inr ⟨hget.trans (congrArg some hsame), rfl⟩⟩
        · cases h
      · rintro ⟨_, h, ⟨habsent, -⟩ | ⟨hstored, rfl⟩⟩
        · cases h
          rw [hget] at habsent
          cases habsent
        · cases h
          rw [if_pos (Option.some.inj (hget.symm.trans hstored))]

theorem eq_of_addSignature_error {e : ClientError}
    (h : Collecting.addSignature signature s = .error e s') : s' = s := by
  rw [addSignature_apply] at h
  split at h
  · cases h
    rfl
  · split at h
    · split at h
      · cases h
      · cases h
        rfl
    · cases h

theorem addSignature_ok_iff :
    s.addSignature signature = .ok s' ↔
      ∃ organization, signature.Verifies s.configUpdate organization ∧
        (s.Adds organization signature s' ∨
          (s.signatures.get? organization = some signature ∧ s' = s)) := by
  rw [← addSignature_eq_ok_iff, addSignature]
  cases Collecting.addSignature signature s with
  | ok _ left =>
    constructor
    · intro h
      cases h
      rfl
    · intro h
      cases h
      rfl
  | error e left =>
    constructor
    · intro h
      cases h
    · intro h
      cases h

/-- What a call that succeeds does. -/
inductive Effect (s : UpdateSession) : SessionCall → UpdateSession → Prop
  | signed {s' : UpdateSession} {signer : Signer} {headers headers' : HeaderSource}
      {signature : ConfigSignature} :
      signConfigUpdate signer s.configUpdate headers = .ok signature headers' →
      s.Adds signer.orgId signature s' → Effect s (.signBy signer headers) s'
  | added {s' : UpdateSession} {signature : ConfigSignature} {organization : String} :
      signature.Verifies s.configUpdate organization → s.Adds organization signature s' →
      Effect s (.addSignature signature) s'
  | repeated {signature : ConfigSignature} {organization : String} :
      signature.Verifies s.configUpdate organization →
      s.signatures.get? organization = some signature → Effect s (.addSignature signature) s

theorem perform_ok_iff : s.perform call = .ok () s' ↔ s.Effect call s' := by
  cases call with
  | signBy signer headers =>
    have hperform : s.perform (.signBy signer headers) = .ok () s' ↔
        ∃ headers', Collecting.signBy signer (s, headers) = .ok () (s', headers') := by
      rw [perform]
      cases Collecting.signBy signer (s, headers) with
      | ok _ left =>
        constructor
        · intro h
          cases h
          exact ⟨left.2, rfl⟩
        · rintro ⟨_, h⟩
          cases h
          rfl
      | error e left =>
        constructor
        · intro h
          cases h
        · rintro ⟨_, h⟩
          cases h
    rw [hperform]
    constructor
    · rintro ⟨headers', h⟩
      obtain ⟨signature, hsigned, hadds⟩ := signBy_ok_iff.1 h
      exact .signed hsigned hadds
    · intro h
      cases h with
      | signed hsigned hadds => exact ⟨_, signBy_ok_iff.2 ⟨_, hsigned, hadds⟩⟩
  | addSignature signature =>
    rw [perform, addSignature_eq_ok_iff]
    constructor
    · rintro ⟨organization, hverifies, hadds | ⟨hstored, rfl⟩⟩
      · exact .added hverifies hadds
      · exact .repeated hverifies hstored
    · intro h
      cases h with
      | added hverifies hadds => exact ⟨_, hverifies, .inl hadds⟩
      | repeated hverifies hstored => exact ⟨_, hverifies, .inr ⟨hstored, rfl⟩⟩

/-- A call that fails leaves the session as it was. -/
theorem eq_of_perform_error {e : ClientError} (h : s.perform call = .error e s') : s' = s := by
  cases call with
  | signBy signer headers =>
    rw [perform] at h
    cases hsign : Collecting.signBy signer (s, headers) with
    | ok _ left =>
      rw [hsign] at h
      cases h
    | error e' left =>
      rw [hsign] at h
      cases h
      exact eq_of_signBy_error hsign
  | addSignature signature => exact eq_of_addSignature_error h

/-- What a call leaves is what its effect is or, where it fails, what was there before. -/
theorem next_cases (s : UpdateSession) (call : SessionCall) :
    s.Effect call (s.next call) ∨ s.next call = s := by
  rw [next]
  cases h : s.perform call with
  | ok _ s' => exact .inl (perform_ok_iff.1 h)
  | error e s' => exact .inr (eq_of_perform_error h)

/-! ## All calls -/

/-- A session for the same update in which everything that was stored is still stored. -/
structure Extends (s s' : UpdateSession) : Prop where
  channelId : s'.channelId = s.channelId
  configUpdate : s'.configUpdate = s.configUpdate
  stored : ∀ organization signature, s.signatures.get? organization = some signature →
    s'.signatures.get? organization = some signature

theorem Extends.refl (s : UpdateSession) : s.Extends s := ⟨rfl, rfl, fun _ _ h => h⟩

theorem Extends.trans {s'' : UpdateSession} (h : s.Extends s') (h' : s'.Extends s'') :
    s.Extends s'' :=
  ⟨h'.channelId.trans h.channelId, h'.configUpdate.trans h.configUpdate,
    fun _ _ hs => h'.stored _ _ (h.stored _ _ hs)⟩

theorem Adds.extends (h : s.Adds organization signature s') : s.Extends s' := by
  refine ⟨h.channelId, h.configUpdate, fun other stored hs => ?_⟩
  have hne : other ≠ organization := by
    rintro rfl
    rw [h.absent] at hs
    cases hs
  rw [h.stored, if_neg hne]
  exact hs

theorem Effect.extends (h : s.Effect call s') : s.Extends s' := by
  cases h with
  | signed _ hadds => exact hadds.extends
  | added _ hadds => exact hadds.extends
  | repeated _ _ => exact .refl s

theorem extends_next (s : UpdateSession) (call : SessionCall) : s.Extends (s.next call) := by
  obtain heffect | hsame := s.next_cases call
  · exact heffect.extends
  · rw [hsame]
    exact .refl s

theorem extends_after (s : UpdateSession) (calls : List SessionCall) :
    s.Extends (s.after calls) := by
  induction calls generalizing s with
  | nil => exact .refl s
  | cons call calls ih => exact (extends_next s call).trans (ih (s.next call))

/-- What is stored for an organization verifies for it. -/
def Verified (s : UpdateSession) : Prop :=
  ∀ organization signature, s.signatures.get? organization = some signature →
    signature.Verifies s.configUpdate organization

theorem verified_start (channelId : String) (update : Bytes) : (start channelId update).Verified :=
  fun _ _ h => nomatch h

theorem Adds.verified (h : s.Adds organization signature s') (hs : s.Verified)
    (hsignature : signature.Verifies s.configUpdate organization) : s'.Verified := by
  intro other stored hget
  rw [h.stored] at hget
  rw [h.configUpdate]
  split at hget
  · rename_i heq
    cases hget
    rw [heq]
    exact hsignature
  · exact hs other stored hget

theorem Effect.verified (h : s.Effect call s') (hs : s.Verified) (hcall : call.Sound) :
    s'.Verified := by
  cases h with
  | signed hsigned hadds => exact hadds.verified hs (verifies_of_signConfigUpdate hcall hsigned)
  | added hverifies hadds => exact hadds.verified hs hverifies
  | repeated _ _ => exact hs

theorem verified_next (hs : s.Verified) (hcall : call.Sound) : (s.next call).Verified := by
  obtain heffect | hsame := s.next_cases call
  · exact heffect.verified hs hcall
  · rw [hsame]
    exact hs

theorem verified_after (hs : s.Verified) {calls : List SessionCall}
    (hcalls : ∀ call ∈ calls, call.Sound) : (s.after calls).Verified := by
  induction calls generalizing s with
  | nil => exact hs
  | cons call calls ih =>
    refine ih (verified_next hs (hcalls call List.mem_cons_self)) fun c hc => ?_
    exact hcalls c (List.mem_cons_of_mem _ hc)

/-- Whatever is called on a new session: its channel and its update stay what they are, what has
been stored is neither replaced nor removed, a call that fails leaves the session as it was, and a
call that succeeds adds one organization, unless it adds the signature that is stored already.
Where all signers are sound, what is stored for an organization verifies for it. -/
theorem collects_soundly (channelId : String) (update : Bytes) (calls : List SessionCall) :
    let s := (start channelId update).after calls
    s.channelId = channelId ∧ s.configUpdate = update ∧
    (∀ later organization signature, s.signatures.get? organization = some signature →
      (s.after later).signatures.get? organization = some signature) ∧
    (∀ call e s', s.perform call = .error e s' → s' = s) ∧
    (∀ call s', s.perform call = .ok () s' →
      (∃ organization signature, s.Adds organization signature s') ∨
        ∃ organization signature, call = .addSignature signature ∧
          s.signatures.get? organization = some signature ∧ s' = s) ∧
    ((∀ call ∈ calls, call.Sound) → ∀ organization signature,
      s.signatures.get? organization = some signature →
        signature.Verifies update organization) := by
  intro s
  have hextends : (start channelId update).Extends s := extends_after _ calls
  refine ⟨hextends.channelId, hextends.configUpdate, fun later => (extends_after s later).stored,
    fun call e s' h => eq_of_perform_error h, fun call s' h => ?_, fun hcalls => ?_⟩
  · cases perform_ok_iff.1 h with
    | signed _ hadds => exact .inl ⟨_, _, hadds⟩
    | added _ hadds => exact .inl ⟨_, _, hadds⟩
    | repeated _ hstored => exact .inr ⟨_, _, rfl, hstored, rfl⟩
  · have hverified : s.Verified := verified_after (verified_start channelId update) hcalls
    intro organization signature hget
    have hverifies := hverified organization signature hget
    rw [hextends.configUpdate] at hverifies
    exact hverifies

end UpdateSession

/-- A signer that has lost its key. -/
def keylessSigner : Signer :=
  { neutralSigner "Org3MSP" with sign := fun _ => .error (.signing "no key") }

theorem keylessSigner_sound : keylessSigner.Sound := by
  have hkey : (neutralSigner "Org3MSP").Sound := neutralSigner_sound (by decide)
  exact { hkey with accepted := fun _ _ h => nomatch h }

/-- A signature under the key of the neutral point. -/
def neutralConfigSignature (organization : String) : ConfigSignature where
  signatureHeader :=
    toWire (⟨identityOf organization Ed25519.neutralKey, numberedNonce 0⟩ : SignatureHeader)
  signature := Ed25519.neutralSignature

/-- A session collects the signatures of one organization that signs and of another one that sends
its signature, while a third one fails to sign. -/
theorem collects_soundly_threeCalls :
    let headers : HeaderSource := { time := ⟨0, 0⟩, drawn := 0 }
    let calls : List SessionCall := [.signBy (neutralSigner "Org2MSP") headers,
      .signBy keylessSigner headers, .addSignature (neutralConfigSignature "Org1MSP")]
    let s := (UpdateSession.start "ch" [1, 2, 3]).after calls
    (∀ call ∈ calls, call.Sound) ∧ s.signatures.keys = ["Org1MSP", "Org2MSP"] ∧
      ∀ organization signature, s.signatures.get? organization = some signature →
        signature.Verifies [1, 2, 3] organization := by
  intro headers calls s
  have hsound : ∀ call ∈ calls, call.Sound := by
    intro call hcall
    simp only [calls, List.mem_cons, List.not_mem_nil, or_false] at hcall
    obtain rfl | rfl | rfl := hcall
    · exact neutralSigner_sound (by decide)
    · exact keylessSigner_sound
    · exact trivial
  obtain ⟨-, -, -, -, -, hverifies⟩ := UpdateSession.collects_soundly "ch" [1, 2, 3] calls
  exact ⟨hsound, by decide +kernel, hverifies hsound⟩

end LedgerClient
