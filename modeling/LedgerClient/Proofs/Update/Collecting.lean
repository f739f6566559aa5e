import LedgerClient.Proofs.Update.Session
import LedgerClient.Update.Membership
import Mathlib.Data.List.Basic
/-!
# Collected signatures

What the signatures of a sponsor and of others make of a proposal.

* `ProposalSignature.Yields`: the signature carries a hash, and the signature in it verifies
  for an organization.
* `addCollected_ok_iff`, `MembershipProposal.collect_ok_iff`: signatures are merged exactly if
  each of them yields one, and the result holds what they yield.  Neither their order nor
  repetitions matter.
* `MembershipProposal.Approved`: what the sponsor has to have before a submission.
-/

namespace LedgerClient

variable {s s' : UpdateSession} {signature : ConfigSignature} {organization : String}
  {hash update : Bytes} {signer : Signer}

/-- The signature carries the hash, and what it holds verifies over the update for an
organization. -/
def ProposalSignature.Yields (x : ProposalSignature) (hash update : Bytes) (organization : String)
    (signature : ConfigSignature) : Prop :=
  x.proposalHash = hash ∧ decodeMessage ConfigSignature x.signature = .ok signature ∧
    signature.Verifies update organization

theorem ProposalSignature.Yields.unique {x : ProposalSignature} {organization' : String}
    {signature' : ConfigSignature} (h : x.Yields hash update organization signature)
    (h' : x.Yields hash update organization' signature') :
    organization = organization' ∧ signature = signature' := by
  obtain ⟨-, hdecode, hverifies⟩ := h
  obtain ⟨-, hdecode', hverifies'⟩ := h'
  rw [hdecode] at hdecode'
  cases hdecode'
  exact ⟨hverifies.unique hverifies', rfl⟩

namespace UpdateSession

/-- The session for the same update that stores what it did, and more. -/
structure Stores (s : UpdateSession) (more : String → ConfigSignature → Prop)
    (s' : UpdateSession) : Prop where
  channelId : s'.channelId = s.channelId
  configUpdate : s'.configUpdate = s.configUpdate
  stored : ∀ organization signature, s'.signatures.get? organization = some signature ↔
    s.signatures.get? organization = some signature ∨ more organization signature

theorem Stores.eq {more : String → ConfigSignature → Prop} {s'' : UpdateSession}
    (h : s.Stores more s') (h' : s.Stores more s'') : s' = s'' := by
  obtain ⟨channelId, configUpdate, signatures⟩ := s'
  obtain ⟨channelId', configUpdate', signatures'⟩ := s''
  obtain rfl : channelId = channelId' := h.channelId.trans h'.channelId.symm
  obtain rfl : configUpdate = configUpdate' := h.configUpdate.trans h'.configUpdate.symm
  obtain rfl : signatures = signatures' := Dict.ext_get? fun organization =>
    Option.ext fun signature =>
      (h.stored organization signature).trans (h'.stored organization signature).symm
  rfl

theorem stores_congr {more more' : String → ConfigSignature → Prop}
    (h : ∀ organization signature, more organization signature ↔ more' organization signature) :
    s.Stores more s' ↔ s.Stores more' s' := by
  have hmore : more = more' := funext₂ fun organization signature => propext (h _ _)
  rw [hmore]

theorem stores_nothing : s.Stores (fun _ _ => False) s' ↔ s' = s := by
  have hself : s.Stores (fun _ _ => False) s :=
    ⟨rfl, rfl, fun _ _ => (or_false _).symm ▸ Iff.rfl⟩
  constructor
  · exact fun h => h.eq hself
  · rintro rfl
    exact hself

theorem adds_iff_stores : s.Adds organization signature s' ↔
    s.signatures.get? organization = none ∧
      s.Stores (fun o g => o = organization ∧ g = signature) s' := by
  constructor
  · intro h
    refine ⟨h.absent, h.channelId, h.configUpdate, fun other kept => ?_⟩
    rw [h.stored]
    by_cases hother : other = organization
    · subst hother
      rw [if_pos rfl, h.absent]
      simp only [Option.some.injEq, reduceCtorEq, false_or, true_and]
      exact eq_comm
    · rw [if_neg hother]
      simp only [hother, false_and, or_false]
  · rintro ⟨habsent, h⟩
    refine ⟨h.channelId, h.configUpdate, habsent, fun other => Option.ext fun kept => ?_⟩
    rw [h.stored]
    by_cases hother : other = organization
    · subst hother
      rw [if_pos rfl, habsent]
      simp only [Option.some.injEq, reduceCtorEq, false_or, true_and]
      exact eq_comm
    · rw [if_neg hother]
      simp only [hother, false_and, or_false]

theorem stores_stored (h : s.signatures.get? organization = some signature) :
    s.Stores (fun o g => o = organization ∧ g = signature) s' ↔ s' = s := by
  have hself : s.Stores (fun o g => o = organization ∧ g = signature) s := by
    refine ⟨rfl, rfl, fun other kept => ⟨.inl, ?_⟩⟩
    rintro (hkept | ⟨rfl, rfl⟩)
    · exact hkept
    · exact h
  constructor
  · exact fun h => h.eq hself
  · rintro rfl
    exact hself

/-- A signature can be added if it verifies and nothing else is stored for its organization. -/
theorem addSignature_ok_iff_stores :
    s.addSignature signature = .ok s' ↔
      ∃ organization, signature.Verifies s.configUpdate organization ∧
        s.Stores (fun o g => o = organization ∧ g = signature) s' := by
  rw [addSignature_ok_iff]
  refine exists_congr fun organization => and_congr_right fun _ => ?_
  cases hget : s.signatures.get? organization with
  | none =>
    rw [adds_iff_stores]
    simp only [hget, true_and, reduceCtorEq, false_and, or_false]
  | some existing =>
    rw [adds_iff_stores]
    simp only [hget, reduceCtorEq, false_and, false_or, Option.some.injEq]
    constructor
    · rintro ⟨rfl, rfl⟩
      exact (stores_stored hget).2 rfl
    · intro h
      have hexisting := (h.stored organization existing).2 (.inl hget)
      have hsigned := (h.stored organization signature).2 (.inr ⟨rfl, rfl⟩)
      rw [hexisting] at hsigned
      cases hsigned
      exact ⟨rfl, (stores_stored hget).1 h⟩

theorem exists_addSignature (hverifies : signature.Verifies s.configUpdate organization)
    (h : ∀ existing, s.signatures.get? organization = some existing → existing = signature) :
    ∃ s', s.addSignature signature = .ok s' ∧
      s.Stores (fun o g => o = organization ∧ g = signature) s' := by
  cases hget : s.signatures.get? organization with
  | none =>
    have hadds : s.Adds organization signature (s.store organization signature) :=
      adds_iff.2 ⟨hget, rfl⟩
    exact ⟨_, addSignature_ok_iff.2 ⟨organization, hverifies, .inl hadds⟩,
      (adds_iff_stores.1 hadds).2⟩
  | some existing =>
    obtain rfl := h existing hget
    exact ⟨s, addSignature_ok_iff.2 ⟨organization, hverifies, .inr ⟨hget, rfl⟩⟩,
      (stores_stored hget).2 rfl⟩

end UpdateSession

/-! ## Merging -/

theorem addCollected_cons (hash : Bytes) (s : UpdateSession) (x : ProposalSignature)
    (rest : List ProposalSignature) :
    addCollected hash s (x :: rest) =
      if x.proposalHash ≠ hash then .error (.signatureMismatch x.creator)
      else decodeMessage ConfigSignature x.signature >>= fun signature =>
        s.addSignature signature >>= fun s => addCollected hash s rest := by
  rw [addCollected]
  split <;> rfl

/-- One signature after the other is merged into a session if each yields one, and no two for the
same organization differ. -/
theorem addCollected_ok_iff {signatures : List ProposalSignature} :
    addCollected hash s signatures = .ok s' ↔
      (∀ x ∈ signatures, ∃ o g, x.Yields hash s.configUpdate o g) ∧
        s.Stores (fun o g => ∃ x ∈ signatures, x.Yields hash s.configUpdate o g) s' := by
  induction signatures generalizing s with
  | nil =>
    have hnothing : s.Stores (fun o g => ∃ x ∈ ([] : List ProposalSignature),
        x.Yields hash s.configUpdate o g) s' ↔ s' = s := by
      refine Iff.trans (UpdateSession.stores_congr fun o g => ?_) UpdateSession.stores_nothing
      exact ⟨fun ⟨_, h, _⟩ => (nomatch h), fun h => h.elim⟩
    rw [addCollected, hnothing, Except.ok.injEq]
    exact ⟨fun h => ⟨fun _ hx => (nomatch hx), h.symm⟩, fun h => h.2.symm⟩
  | cons x rest ih =>
    rw [addCollected_cons]
    constructor
    · intro h
      split at h
      · cases h
      rename_i hhash
      obtain ⟨signature, hdecode, h⟩ := except_bind_ok.1 h
      obtain ⟨s₁, hadd, h⟩ := except_bind_ok.1 h
      obtain ⟨organization, hverifies, hfirst⟩ := UpdateSession.addSignature_ok_iff_stores.1 hadd
      obtain ⟨hrest, hstores⟩ := ih.1 h
      rw [hfirst.configUpdate] at hrest hstores
      have hyields : x.Yields hash s.configUpdate organization signature :=
        ⟨Decidable.not_not.1 hhash, hdecode, hverifies⟩
      refine ⟨?_, hstores.channelId.trans hfirst.channelId,
        hstores.configUpdate.trans hfirst.configUpdate, fun o g => ?_⟩
      · intro y hy
        rcases List.mem_cons.1 hy with rfl | hy
        · exact ⟨organization, signature, hyields⟩
        · exact hrest y hy
      · rw [hstores.stored, hfirst.stored, or_assoc, List.exists_mem_cons_iff]
        refine or_congr_right (or_congr_left ?_)
        constructor
        · rintro ⟨rfl, rfl⟩
          exact hyields
        · exact fun hy => hy.unique hyields
    · rintro ⟨hall, hstores⟩
      obtain ⟨organization, signature, hyields⟩ := hall x List.mem_cons_self
      have hstored := (hstores.stored organization signature).2
        (.inr ⟨x, List.mem_cons_self, hyields⟩)
      -- What is stored for the organization already is stored in the end, so it is no other one.
      obtain ⟨s₁, hadd, hfirst⟩ :=
        UpdateSession.exists_addSignature hyields.2.2 fun existing hget => by
          have hexisting := (hstores.stored organization existing).2 (.inl hget)
          rw [hstored] at hexisting
          cases hexisting
          rfl
      rw [if_neg (Decidable.not_not.2 hyields.1), hyields.2.1]
      refine except_bind_ok.2 ⟨signature, rfl, except_bind_ok.2 ⟨s₁, hadd, ih.2 ?_⟩⟩
      rw [hfirst.configUpdate]
      refine ⟨fun y hy => hall y (List.mem_cons_of_mem _ hy),
        hstores.channelId.trans hfirst.channelId.symm,
        hstores.configUpdate.trans hfirst.configUpdate.symm, fun o g => ?_⟩
      rw [hstores.stored, hfirst.stored, or_assoc, List.exists_mem_cons_iff]
      refine or_congr_right (or_congr_left ?_)
      constructor
      · exact fun hy => hy.unique hyields
      · rintro ⟨rfl, rfl⟩
        exact hyields

namespace MembershipProposal

variable {p : MembershipProposal} {signatures : List ProposalSignature}

/-- The sponsor is the submitter's organization and has signed this proposal, and every signature
was made for it and verifies. -/
structure Approved (p : MembershipProposal) (signer : Signer)
    (signatures : List ProposalSignature) : Prop where
  sponsored : p.sponsor.creator = signer.orgId
  hashed : p.sponsor.proposalHash = hashOf p.proposal
  signed : ∀ x ∈ p.sponsor :: signatures, ∃ organization signature,
    x.Yields (hashOf p.proposal) p.proposal organization signature

theorem collect_eq (p : MembershipProposal) (signer : Signer)
    (signatures : List ProposalSignature) :
    p.collect signer signatures =
      if p.sponsor.creator ≠ signer.orgId then
        .error (.proposerMismatch p.sponsor.creator signer.orgId)
      else if p.sponsor.proposalHash ≠ hashOf p.proposal then
        .error (.signatureMismatch p.sponsor.creator)
      else addCollected p.sponsor.proposalHash (.start p.channelId p.proposal)
        (p.sponsor :: signatures) := by
  rw [collect]
  split
  · rfl
  · split <;> rfl

/-- The signatures are merged if the proposal is approved and no two signatures of the same
organization differ; the session then stores them all. -/
theorem collect_ok_iff {s : UpdateSession} :
    p.collect signer signatures = .ok s ↔
      p.Approved signer signatures ∧
        (UpdateSession.start p.channelId p.proposal).Stores (fun o g =>
          ∃ x ∈ p.sponsor :: signatures, x.Yields (hashOf p.proposal) p.proposal o g) s := by
  rw [collect_eq]
  constructor
  · intro h
    split at h
    · cases h
    rename_i hsponsor
    split at h
    · cases h
    rename_i hhash
    have hhash' := Decidable.not_not.1 hhash
    rw [hhash'] at h
    obtain ⟨hall, hstores⟩ := addCollected_ok_iff.1 h
    exact ⟨⟨Decidable.not_not.1 hsponsor, hhash', hall⟩, hstores⟩
  · rintro ⟨⟨hsponsor, hhash, hall⟩, hstores⟩
    rw [if_neg (Decidable.not_not.2 hsponsor), if_neg (Decidable.not_not.2 hhash), hhash]
    exact addCollected_ok_iff.2 ⟨hall, hstores⟩

end MembershipProposal

end LedgerClient
