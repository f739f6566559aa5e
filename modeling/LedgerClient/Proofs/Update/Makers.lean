import LedgerClient.Proofs.Update.Honest
/-!
# Signatures and their makers

Which signatures can be merged for a proposal, and whose they are.

* `MembershipProposal.Gathers`: one of the signatures of a proposal, the sponsor's or another, yields
  a signature of an organization.
* `MembershipProposal.exists_collect_iff`: the signatures are merged exactly if the proposal is
  approved and no organization has made two different ones.
* `MembershipProposal.collect_of_covers`: the merged session depends on what the signatures hold, and
  not on their order, on repetitions, or on the names that stand beside them.
* `MembershipProposal.collect_iff_agreeing`: when signatures are merged, and what the session holds.
* `MembershipProposal.collect_names`: whose signatures a session holds.  The names beside the
  signatures are not checked; where they are right, they are the organizations of the session.
* `collect_misnamed`: a session without the organization that is named as sponsor.
-/

namespace LedgerClient

variable {s s' : UpdateSession} {signature : ConfigSignature} {organization : String}
  {hash update : Bytes} {signer signer' : Signer} {signatures others : List ProposalSignature}

/-! ## Merging -/

/-- Signatures that yield one each can be merged into a session if at most one signature of every
organization is stored or yielded. -/
theorem exists_addCollected
    (hall : ∀ x ∈ signatures, ∃ o g, x.Yields hash s.configUpdate o g)
    (hagree : ∀ o g g',
      (s.signatures.get? o = some g ∨ ∃ x ∈ signatures, x.Yields hash s.configUpdate o g) →
      (s.signatures.get? o = some g' ∨ ∃ x ∈ signatures, x.Yields hash s.configUpdate o g') →
      g = g') :
    ∃ s', addCollected hash s signatures = .ok s' := by
  induction signatures generalizing s with
  | nil => exact ⟨s, rfl⟩
  | cons x rest ih =>
    obtain ⟨organization, signature, hyields⟩ := hall x List.mem_cons_self
    obtain ⟨s₁, hadd, hfirst⟩ :=
      UpdateSession.exists_addSignature hyields.2.2 fun existing hget =>
        hagree organization existing signature (.inl hget) (.inr ⟨x, List.mem_cons_self, hyields⟩)
    -- what the next session stores was stored before or is yielded by the first signature
    have hearlier : ∀ o g, (s₁.signatures.get? o = some g ∨
        ∃ y ∈ rest, y.Yields hash s₁.configUpdate o g) →
        s.signatures.get? o = some g ∨ ∃ y ∈ x :: rest, y.Yields hash s.configUpdate o g := by
      intro o g h
      rw [hfirst.configUpdate, hfirst.stored, or_assoc] at h
      rcases h with hstored | ⟨rfl, rfl⟩ | ⟨y, hy, hrest⟩
      · exact .inl hstored
      · exact .inr ⟨x, List.mem_cons_self, hyields⟩
      · exact .inr ⟨y, List.mem_cons_of_mem _ hy, hrest⟩
    obtain ⟨s', hs'⟩ := ih (s := s₁)
      (fun y hy => hfirst.configUpdate ▸ hall y (List.mem_cons_of_mem _ hy))
      (fun o g g' h h' => hagree o g g' (hearlier o g h) (hearlier o g' h'))
    refine ⟨s', ?_⟩
    rw [addCollected_cons, if_neg (Decidable.not_not.2 hyields.1), hyields.2.1]
    exact except_bind_ok.2 ⟨signature, rfl, except_bind_ok.2 ⟨s₁, hadd, hs'⟩⟩

/-! ## What signatures hold -/

/-- A signature without the name that stands beside it. -/
def ProposalSignature.contents (x : ProposalSignature) : Bytes × Bytes :=
  (x.proposalHash, x.signature)

theorem ProposalSignature.Yields.of_contents {x y : ProposalSignature}
    (h : y.contents = x.contents) (hx : x.Yields hash update organization signature) :
    y.Yields hash update organization signature := by
  obtain ⟨hhash, hsignature⟩ := Prod.mk.inj h
  obtain ⟨hx, hdecode, hverifies⟩ := hx
  exact ⟨hhash.trans hx, hsignature ▸ hdecode, hverifies⟩

/-- Every signature of the second list is in the first one, under some name. -/
def Covers (signatures others : List ProposalSignature) : Prop :=
  ∀ x ∈ others, ∃ y ∈ signatures, y.contents = x.contents

theorem covers_of_subset (h : ∀ x ∈ others, x ∈ signatures) : Covers signatures others :=
  fun x hx => ⟨x, h x hx, rfl⟩

theorem covers_of_contents
    (h : signatures.map ProposalSignature.contents = others.map ProposalSignature.contents) :
    Covers signatures others := by
  intro x hx
  have hmem : x.contents ∈ others.map ProposalSignature.contents := List.mem_map_of_mem hx
  rw [← h] at hmem
  exact List.mem_map.1 hmem

namespace MembershipProposal

variable {p q : MembershipProposal}

/-- One of the signatures of the proposal, the sponsor's or another, yields the signature for the
organization. -/
def Gathers (p : MembershipProposal) (signatures : List ProposalSignature) (organization : String)
    (signature : ConfigSignature) : Prop :=
  ∃ x ∈ p.sponsor :: signatures, x.Yields (hashOf p.proposal) p.proposal organization signature

/-- What the merged session stores is what the signatures yield. -/
theorem get?_of_collect (h : p.collect signer signatures = .ok s) :
    s.signatures.get? organization = some signature ↔
      p.Gathers signatures organization signature := by
  have hnone : ¬(UpdateSession.start p.channelId p.proposal).signatures.get? organization =
      some signature := fun h => (nomatch h)
  rw [(collect_ok_iff.1 h).2.stored, or_iff_right hnone]
  exact Iff.rfl

/-- The signatures are merged exactly if the proposal is approved and no two signatures of the same
organization differ. -/
theorem exists_collect_iff :
    (∃ s, p.collect signer signatures = .ok s) ↔ p.Approved signer signatures ∧
      ∀ o g g', p.Gathers signatures o g → p.Gathers signatures o g' → g = g' := by
  constructor
  · rintro ⟨s, hs⟩
    refine ⟨(collect_ok_iff.1 hs).1, fun o g g' hg hg' => ?_⟩
    have hstored := (get?_of_collect hs).2 hg
    rw [(get?_of_collect hs).2 hg'] at hstored
    exact (Option.some.inj hstored).symm
  · rintro ⟨happroved, hagree⟩
    have hnone : ∀ o g,
        ¬(UpdateSession.start p.channelId p.proposal).signatures.get? o = some g :=
      fun _ _ h => (nomatch h)
    obtain ⟨s, hs⟩ := exists_addCollected (s := .start p.channelId p.proposal) happroved.signed
      fun o g g' h h' => hagree o g g' (h.resolve_left (hnone o g)) (h'.resolve_left (hnone o g'))
    refine ⟨s, ?_⟩
    rw [collect_eq, if_neg (Decidable.not_not.2 happroved.sponsored),
      if_neg (Decidable.not_not.2 happroved.hashed), happroved.hashed]
    exact hs

theorem Gathers.of_covers (hproposal : q.proposal = p.proposal)
    (h : Covers (q.sponsor :: others) (p.sponsor :: signatures))
    (hgathers : p.Gathers signatures organization signature) :
    q.Gathers others organization signature := by
  obtain ⟨x, hx, hyields⟩ := hgathers
  obtain ⟨y, hy, hcontents⟩ := h x hx
  rw [Gathers, hproposal]
  exact ⟨y, hy, hyields.of_contents hcontents⟩

/-- Signatures that hold the same, of the same proposal, are merged into the same session, if the
submitter is the one that is named as sponsor. -/
theorem collect_of_covers (h : p.collect signer signatures = .ok s)
    (hchannel : q.channelId = p.channelId) (hproposal : q.proposal = p.proposal)
    (hsponsor : q.sponsor.creator = signer'.orgId)
    (hcovers : Covers (q.sponsor :: others) (p.sponsor :: signatures))
    (hcovered : Covers (p.sponsor :: signatures) (q.sponsor :: others)) :
    q.collect signer' others = .ok s := by
  obtain ⟨happroved, hstores⟩ := collect_ok_iff.1 h
  have hsigned : ∀ x ∈ q.sponsor :: others, ∃ o g, x.Yields (hashOf p.proposal) p.proposal o g := by
    intro x hx
    obtain ⟨y, hy, hcontents⟩ := hcovered x hx
    obtain ⟨o, g, hyields⟩ := happroved.signed y hy
    exact ⟨o, g, hyields.of_contents hcontents.symm⟩
  have hgathers : ∀ o g, p.Gathers signatures o g ↔ q.Gathers others o g := fun o g =>
    ⟨.of_covers hproposal hcovers, .of_covers hproposal.symm hcovered⟩
  have hstores' := (UpdateSession.stores_congr hgathers).1 hstores
  obtain ⟨o, g, hhash, -, -⟩ := hsigned q.sponsor List.mem_cons_self
  rw [← hproposal] at hsigned hhash hstores'
  rw [← hchannel] at hstores'
  exact collect_ok_iff.2 ⟨⟨hsponsor, hhash, hsigned⟩, hstores'⟩

/-- Signatures are merged exactly if the sponsor is the submitter's organization and has signed this
proposal, every signature was made for it, can be read and verifies, and no two signatures of one
organization differ.  The session is then for the channel and the bytes of the proposal, and holds
for every organization the signature that its identity has made, and no other.  So a list with the
same signatures in another order, or with repetitions, is merged into the same session or not at
all. -/
theorem collect_iff_agreeing (p : MembershipProposal) (signer : Signer)
    (signatures : List ProposalSignature) :
    ((∃ s, p.collect signer signatures = .ok s) ↔
      p.sponsor.creator = signer.orgId ∧ p.sponsor.proposalHash = hashOf p.proposal ∧
      (∀ x ∈ signatures, x.proposalHash = hashOf p.proposal) ∧
      (∀ x ∈ p.sponsor :: signatures, ∃ g, decodeMessage ConfigSignature x.signature = .ok g ∧
        ∃ o, g.Verifies p.proposal o) ∧
      ∀ o g g', p.Gathers signatures o g → p.Gathers signatures o g' → g = g') ∧
    (∀ s, p.collect signer signatures = .ok s →
      s.channelId = p.channelId ∧ s.configUpdate = p.proposal ∧
      ∀ o g, s.signatures.get? o = some g ↔ p.Gathers signatures o g) ∧
    ∀ others, (∀ x, x ∈ p.sponsor :: others ↔ x ∈ p.sponsor :: signatures) → ∀ s,
      p.collect signer others = .ok s ↔ p.collect signer signatures = .ok s := by
  refine ⟨?_, fun s hs => ?_, fun others hmem s => ?_⟩
  · rw [exists_collect_iff]
    constructor
    · rintro ⟨happroved, hagree⟩
      refine ⟨happroved.sponsored, happroved.hashed, fun x hx => ?_, fun x hx => ?_, hagree⟩
      · obtain ⟨o, g, hhash, -, -⟩ := happroved.signed x (List.mem_cons_of_mem _ hx)
        exact hhash
      · obtain ⟨o, g, -, hdecode, hverifies⟩ := happroved.signed x hx
        exact ⟨g, hdecode, o, hverifies⟩
    · rintro ⟨hsponsored, hhashed, hhashes, hsigned, hagree⟩
      refine ⟨⟨hsponsored, hhashed, fun x hx => ?_⟩, hagree⟩
      obtain ⟨g, hdecode, o, hverifies⟩ := hsigned x hx
      have hhash : x.proposalHash = hashOf p.proposal := by
        rcases List.mem_cons.1 hx with rfl | hx
        · exact hhashed
        · exact hhashes x hx
      exact ⟨o, g, hhash, hdecode, hverifies⟩
  · obtain ⟨-, hstores⟩ := collect_ok_iff.1 hs
    exact ⟨hstores.channelId, hstores.configUpdate, fun o g => get?_of_collect hs⟩
  · have hcovers := covers_of_subset fun x hx => (hmem x).2 hx
    have hcovered := covers_of_subset fun x hx => (hmem x).1 hx
    constructor
    · intro h
      exact collect_of_covers h rfl rfl (collect_ok_iff.1 h).1.sponsored hcovered hcovers
    · intro h
      exact collect_of_covers h rfl rfl (collect_ok_iff.1 h).1.sponsored hcovers hcovered

end MembershipProposal

/-! ### Signatures with numbered headers -/

/-- A signature under the key of the neutral point, with the header of a number. -/
def numberedConfigSignature (organization : String) (n : Nat) : ConfigSignature where
  signatureHeader :=
    toWire (⟨identityOf organization Ed25519.neutralKey, numberedNonce n⟩ : SignatureHeader)
  signature := Ed25519.neutralSignature

def numberedSignature (proposal : Bytes) (organization : String) (n : Nat) : ProposalSignature where
  proposalHash := hashOf proposal
  creator := organization
  signature := toWire (numberedConfigSignature organization n)

theorem numberedSignature_yields (proposal : Bytes) (n : Nat)
    (h : (identityOf organization Ed25519.neutralKey).length < 2 ^ 31) :
    (numberedSignature proposal organization n).Yields (hashOf proposal) proposal organization
      (numberedConfigSignature organization n) := by
  have hnonce : (numberedNonce n).length = 24 := List.length_replicate
  have hidentity := decodeMessage_identityOf (h.trans (by decide))
  have hheader : (numberedConfigSignature organization n).signatureHeader.length < 2 ^ 32 := by
    rw [numberedConfigSignature, length_signatureHeader, hnonce]
    omega
  have hsignature : Ed25519.neutralSignature.length < 2 ^ 32 := by decide
  refine ⟨rfl, decodeMessage_toWire rfl ⟨hheader, hsignature, trivial⟩, _, _,
    decodeMessage_of_length rfl rfl hheader, hidentity, rfl, ?_⟩
  exact verifySignature_of_key hidentity (Ed25519.verify_neutral _)

namespace MembershipProposal

variable {p : MembershipProposal}

/-- What numbered signatures yield. -/
theorem gathers_numbered {l : List (String × Nat)}
    (hshort : ∀ e ∈ l, (identityOf e.1 Ed25519.neutralKey).length < 2 ^ 31)
    (hl : p.sponsor :: signatures = l.map fun e => numberedSignature p.proposal e.1 e.2) :
    p.Gathers signatures organization signature ↔
      ∃ n, (organization, n) ∈ l ∧ signature = numberedConfigSignature organization n := by
  rw [Gathers, hl]
  constructor
  · rintro ⟨x, hx, hyields⟩
    obtain ⟨⟨o, n⟩, he, rfl⟩ := List.mem_map.1 hx
    obtain ⟨rfl, rfl⟩ := hyields.unique (numberedSignature_yields p.proposal n (hshort _ he))
    exact ⟨n, he, rfl⟩
  · rintro ⟨n, he, rfl⟩
    exact ⟨_, List.mem_map.2 ⟨_, he, rfl⟩, numberedSignature_yields p.proposal n (hshort _ he)⟩

end MembershipProposal

/-- Three organizations sign; the signatures may come in another order, with repetitions and with
the sponsor's among them.  Two signatures of one organization with different headers are refused. -/
theorem collect_iff_agreeing_threeSigners :
    let p := neutralProposal
    let signed := numberedSignature p.proposal
    (∃ s, p.collect (neutralSigner "Org1MSP") [signed "Org2MSP" 0, signed "Org3MSP" 0] = .ok s ∧
      (∀ o, (∃ g, s.signatures.get? o = some g) ↔ o ∈ ["Org1MSP", "Org2MSP", "Org3MSP"]) ∧
      p.collect (neutralSigner "Org1MSP")
        [signed "Org3MSP" 0, p.sponsor, signed "Org2MSP" 0, signed "Org3MSP" 0] = .ok s) ∧
    ¬∃ s, p.collect (neutralSigner "Org1MSP") [signed "Org2MSP" 0, signed "Org2MSP" 1] = .ok s := by
  intro p signed
  have hgathers : ∀ o g, p.Gathers [signed "Org2MSP" 0, signed "Org3MSP" 0] o g ↔
      ∃ n, (o, n) ∈ [("Org1MSP", 0), ("Org2MSP", 0), ("Org3MSP", 0)] ∧
        g = numberedConfigSignature o n :=
    fun o g => MembershipProposal.gathers_numbered (by decide) rfl
  have hsigned : ∀ x ∈ p.sponsor :: [signed "Org2MSP" 0, signed "Org3MSP" 0],
      ∃ g, decodeMessage ConfigSignature x.signature = .ok g ∧ ∃ o, g.Verifies p.proposal o := by
    have hshort : ∀ o ∈ ["Org1MSP", "Org2MSP", "Org3MSP"],
        (identityOf o Ed25519.neutralKey).length < 2 ^ 31 := by decide
    intro x hx
    obtain ⟨o, ho, rfl⟩ : ∃ o ∈ ["Org1MSP", "Org2MSP", "Org3MSP"], signed o 0 = x :=
      List.mem_map.1 hx
    obtain ⟨-, hdecode, hverifies⟩ := numberedSignature_yields p.proposal 0 (hshort o ho)
    exact ⟨_, hdecode, o, hverifies⟩
  obtain ⟨hiff, hholds, hunordered⟩ := MembershipProposal.collect_iff_agreeing p
    (neutralSigner "Org1MSP") [signed "Org2MSP" 0, signed "Org3MSP" 0]
  obtain ⟨s, hs⟩ := hiff.2 ⟨rfl, rfl, by simp [signed, numberedSignature], hsigned, by
    intro o g g' hg hg'
    obtain ⟨n, hn, rfl⟩ := (hgathers o g).1 hg
    obtain ⟨n', hn', rfl⟩ := (hgathers o g').1 hg'
    grind⟩
  refine ⟨⟨s, hs, fun o => ?_, ?_⟩, ?_⟩
  · obtain ⟨-, -, hstored⟩ := hholds s hs
    simp only [hstored, hgathers]
    grind
  · exact (hunordered _ (by grind) s).2 hs
  · intro hrefused
    obtain ⟨-, -, -, -, hagree⟩ := (MembershipProposal.collect_iff_agreeing p
      (neutralSigner "Org1MSP") [signed "Org2MSP" 0, signed "Org2MSP" 1]).1.1 hrefused
    have hboth : ∀ n, n = 0 ∨ n = 1 → p.Gathers [signed "Org2MSP" 0, signed "Org2MSP" 1] "Org2MSP"
        (numberedConfigSignature "Org2MSP" n) := fun n hn =>
      (MembershipProposal.gathers_numbered
        (l := [("Org1MSP", 0), ("Org2MSP", 0), ("Org2MSP", 1)]) (by decide) rfl).2
        ⟨n, by grind, rfl⟩
    exact absurd (hagree _ _ _ (hboth 0 (.inl rfl)) (hboth 1 (.inr rfl))) (by decide)

/-! ## Names -/

namespace MembershipProposal

variable {p : MembershipProposal}

/-- The organizations of the merged session are those whose identities have made the signatures.  A
signature whose name is right is stored under its name; if all names are right, they are the
organizations of the session.  But the names are not checked: under any other names the same
signatures make the same session, for whoever is named as sponsor. -/
theorem collect_names (h : p.collect signer signatures = .ok s) :
    (∀ o, o ∈ s.signatures.keys ↔ ∃ g, p.Gathers signatures o g) ∧
    (∀ x ∈ p.sponsor :: signatures, x.IsOf p.proposal x.creator →
      ∃ g, s.signatures.get? x.creator = some g ∧ g.Verifies p.proposal x.creator) ∧
    ((∀ x ∈ p.sponsor :: signatures, x.IsOf p.proposal x.creator) →
      ∀ o, o ∈ s.signatures.keys ↔ ∃ x ∈ p.sponsor :: signatures, x.creator = o) ∧
    ∀ (q : MembershipProposal) (submitter : Signer) (others : List ProposalSignature),
      q.channelId = p.channelId → q.proposal = p.proposal → q.sponsor.creator = submitter.orgId →
      (q.sponsor :: others).map (·.contents) = (p.sponsor :: signatures).map (·.contents) →
      q.collect submitter others = .ok s := by
  have hkeys : ∀ o, o ∈ s.signatures.keys ↔ ∃ g, p.Gathers signatures o g := fun o => by
    rw [Dict.mem_keys_iff]
    exact exists_congr fun g => get?_of_collect h
  refine ⟨hkeys, ?_, fun hright o => ?_, ?_⟩
  · rintro x hx ⟨-, g, hyields⟩
    exact ⟨g, (get?_of_collect h).2 ⟨x, hx, hyields⟩, hyields.2.2⟩
  · rw [hkeys]
    constructor
    · rintro ⟨g, x, hx, hyields⟩
      obtain ⟨-, g', hyields'⟩ := hright x hx
      exact ⟨x, hx, (hyields.unique hyields').1.symm⟩
    · rintro ⟨x, hx, rfl⟩
      obtain ⟨-, g, hyields⟩ := hright x hx
      exact ⟨g, x, hx, hyields⟩
  · intro q submitter others hchannel hproposal hsponsor hcontents
    exact collect_of_covers h hchannel hproposal hsponsor (covers_of_contents hcontents)
      (covers_of_contents hcontents.symm)

end MembershipProposal

/-- Two organizations sign under their own names.  The same signatures under the names of two others
make the same session for one of these. -/
theorem collect_names_twoSigners :
    let p := neutralProposal
    let x := numberedSignature p.proposal "Org2MSP" 0
    ∃ s, p.collect (neutralSigner "Org1MSP") [x] = .ok s ∧
      (∀ o, o ∈ s.signatures.keys ↔ o = "Org1MSP" ∨ o = "Org2MSP") ∧
      { p with sponsor := { p.sponsor with creator := "Org8MSP" } }.collect
        (neutralSigner "Org8MSP") [{ x with creator := "Org9MSP" }] = .ok s := by
  intro p x
  have hright : ∀ y ∈ p.sponsor :: [x], y.IsOf p.proposal y.creator := by
    have hshort : ∀ o ∈ ["Org1MSP", "Org2MSP"],
        (identityOf o Ed25519.neutralKey).length < 2 ^ 31 := by decide
    intro y hy
    obtain ⟨o, ho, rfl⟩ : ∃ o ∈ ["Org1MSP", "Org2MSP"], numberedSignature p.proposal o 0 = y :=
      List.mem_map.1 hy
    exact ⟨rfl, _, numberedSignature_yields p.proposal 0 (hshort o ho)⟩
  have hisOk : (p.collect (neutralSigner "Org1MSP") [x]).isOk = true := by decide +kernel
  obtain ⟨s, hs⟩ := exists_ok_of_isOk hisOk
  obtain ⟨-, -, hnames, hrenamed⟩ := MembershipProposal.collect_names hs
  refine ⟨s, hs, fun o => ?_, hrenamed _ (neutralSigner "Org8MSP") _ rfl rfl rfl rfl⟩
  rw [hnames hright]
  simp [p, x, neutralProposal, neutralProposalSignature, numberedSignature, eq_comm]

/-- A proposal that another organization has signed in the name of the sponsor, with a signature of a
third one in the name of a fourth: the session holds the second and the third. -/
theorem collect_misnamed :
    let signed := numberedSignature neutralProposal.proposal
    let p := { neutralProposal with sponsor := { signed "Org2MSP" 0 with creator := "Org1MSP" } }
    let x := { signed "Org3MSP" 0 with creator := "Org4MSP" }
    ∃ s, p.collect (neutralSigner "Org1MSP") [x] = .ok s ∧
      (p.sponsor :: [x]).map (·.creator) = ["Org1MSP", "Org4MSP"] ∧
      s.signatures.keys = ["Org2MSP", "Org3MSP"] ∧
      s.signatures.get? p.sponsor.creator = none := by
  intro signed p x
  have hmade : (p.collect (neutralSigner "Org1MSP") [x]).map
      (fun s => (s.signatures.keys, s.signatures.get? "Org1MSP")) =
        .ok (["Org2MSP", "Org3MSP"], none) := by
    decide +kernel
  cases hs : p.collect (neutralSigner "Org1MSP") [x] with
  | error e =>
    rw [hs] at hmade
    cases hmade
  | ok s =>
    rw [hs] at hmade
    obtain ⟨hkeys, habsent⟩ := Prod.mk.inj (Except.ok.inj hmade)
    exact ⟨s, rfl, rfl, hkeys, habsent⟩

end LedgerClient
