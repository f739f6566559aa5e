import LedgerClient.Proofs.Json.RoundTrip
import LedgerClient.Proofs.Policy.Grammar
import LedgerClient.Proofs.Transaction.Contents
/-!
# Policy expressions in definitions

A definition that is approved or committed holds policy expressions in three places: its own
signature policy, and for each collection the policy on its members and the one on its endorsers.

* `ChaincodeDefinition.Holds`: an expression stands in a definition, at one of these places.
* `collectionsOfJson_ok_iff`: which collections are read from a text.  The policy on the members may
  be any text.
* `BuiltProposal.Carries`: the call in a proposal approves or commits a definition, which is read
  from its arguments.
* `expressions_of_built`: the expressions that a proposal carries are well formed, except for those
  on the members of collections, of which none is refused.
* `malformed_membership`: a proposal that carries an expression which cannot be read.
-/

namespace LedgerClient

/-! ## Collections -/

/-- What is asked of a collection.  Nothing is asked of the policy on its members. -/
structure CollectionConfig.Sound (c : CollectionConfig) : Prop where
  named : c.name ≠ ""
  peers : c.requiredPeerCount ≤ c.maxPeerCount
  endorsed : ∀ expression, c.endorsementPolicy = some (.signaturePolicy expression) →
    checkPolicy expression = .ok ()

theorem CollectionConfig.check_ok_iff {c : CollectionConfig} : c.check = .ok () ↔ c.Sound := by
  rw [CollectionConfig.check]
  by_cases hname : c.name.isEmpty = true
  · rw [if_pos hname]
    exact ⟨fun h => (nomatch h), fun h => absurd (String.isEmpty_iff.1 hname) h.named⟩
  · rw [if_neg hname]
    by_cases hpeers : c.maxPeerCount < c.requiredPeerCount
    · rw [if_pos hpeers]
      exact ⟨fun h => (nomatch h), fun h => absurd hpeers (Int32.not_lt.2 h.peers)⟩
    · rw [if_neg hpeers]
      have hsound : c.Sound ↔ ∀ expression,
          c.endorsementPolicy = some (.signaturePolicy expression) →
            checkPolicy expression = .ok () :=
        ⟨fun h => h.endorsed, fun h => ⟨mt String.isEmpty_iff.2 hname, Int32.not_lt.1 hpeers, h⟩⟩
      rw [hsound]
      dsimp only [pure_bind]
      split
      · rename_i expression heq
        rw [heq]
        exact ⟨fun h _ hother => by cases hother; exact h, fun h => h expression rfl⟩
      · rename_i hnone
        exact iff_of_true rfl fun expression heq => absurd heq (hnone expression)

theorem forM_ok_iff {α ε : Type} {f : α → Except ε Unit} {l : List α} :
    l.forM f = .ok () ↔ ∀ a ∈ l, f a = .ok () := by
  induction l with
  | nil => exact iff_of_true rfl nofun
  | cons a l ih =>
    rw [List.forall_mem_cons, ← ih]
    change (f a >>= fun _ => l.forM f) = .ok () ↔ _
    exact except_bind_ok.trans ⟨fun ⟨_, ha, hl⟩ => ⟨ha, hl⟩, fun ⟨ha, hl⟩ => ⟨(), ha, hl⟩⟩

theorem collectionsOfJson_ok_iff {text : String} {package : CollectionConfigPackage} :
    collectionsOfJson text = .ok package ↔
      fromJsonText (List CollectionConfig) text = .ok package.config ∧
        ∀ c ∈ package.config, c.Sound := by
  have hsound : ∀ config : List CollectionConfig,
      config.forM CollectionConfig.check = .ok () ↔ ∀ c ∈ config, c.Sound := fun _ =>
    forM_ok_iff.trans (forall₂_congr fun _ _ => CollectionConfig.check_ok_iff)
  rw [collectionsOfJson, except_bind_ok]
  constructor
  · rintro ⟨config, hread, hrest⟩
    obtain ⟨_, hcheck, hreturn⟩ := except_bind_ok.1 hrest
    cases hreturn
    exact ⟨mapError_ok_iff.1 hread, (hsound _).1 hcheck⟩
  · rintro ⟨hread, hcheck⟩
    exact ⟨package.config, mapError_ok_iff.2 hread,
      except_bind_ok.2 ⟨(), (hsound _).2 hcheck, rfl⟩⟩

/-- All sound collections are read from some text. -/
theorem exists_collectionsOfJson {package : CollectionConfigPackage}
    (h : ∀ c ∈ package.config, c.Sound) : ∃ text, collectionsOfJson text = .ok package :=
  ⟨toJsonText package.config,
    collectionsOfJson_ok_iff.2 ⟨fromJson_toJsonText (by decide) package.config, h⟩⟩

/-! ## Definitions -/

/-- Where a policy expression stands in a definition. -/
inductive ExpressionPlace where
  | definition
  /-- It says who the members of a collection are. -/
  | members
  /-- It says who endorses changes of a collection. -/
  | endorsers
  deriving DecidableEq

namespace ChaincodeDefinition

/-- A policy expression stands in a definition. -/
inductive Holds (d : ChaincodeDefinition) : ExpressionPlace → String → Prop
  | definition {expression : String} : d.signaturePolicy = some expression →
      Holds d .definition expression
  | members {package : CollectionConfigPackage} {c : CollectionConfig} :
      d.collections = some package → c ∈ package.config → Holds d .members c.policy
  | endorsers {package : CollectionConfigPackage} {c : CollectionConfig} {expression : String} :
      d.collections = some package → c ∈ package.config →
      c.endorsementPolicy = some (.signaturePolicy expression) → Holds d .endorsers expression

/-- The collections, if there are any, were read from a text. -/
def CollectionsRead (d : ChaincodeDefinition) : Prop :=
  ∀ package, d.collections = some package → ∃ text, collectionsOfJson text = .ok package

/-- The definition with other policies on the members of its collections. -/
def withMembers (d : ChaincodeDefinition) (policy : CollectionConfig → String) :
    ChaincodeDefinition :=
  { d with collections := d.collections.map fun package =>
      ⟨package.config.map fun c => { c with policy := policy c }⟩ }

variable {d : ChaincodeDefinition}

theorem CollectionsRead.withMembers (h : d.CollectionsRead) (policy : CollectionConfig → String) :
    (d.withMembers policy).CollectionsRead := by
  intro package hpackage
  obtain ⟨original, horiginal, rfl⟩ := Option.map_eq_some_iff.1 hpackage
  obtain ⟨text, htext⟩ := h original horiginal
  refine exists_collectionsOfJson (List.forall_mem_map.2 fun c hc => ?_)
  obtain ⟨hnamed, hpeers, hendorsed⟩ := (collectionsOfJson_ok_iff.1 htext).2 c hc
  exact ⟨hnamed, hpeers, hendorsed⟩

theorem holds_members_normal {expression : String} :
    d.normal.Holds .members expression ↔ d.Holds .members expression := by
  constructor
  · rintro ⟨⟩
    rename_i hpackage hc
    exact .members hpackage hc
  · rintro ⟨⟩
    rename_i hpackage hc
    exact .members hpackage hc

/-- Outside of the policies on members, a definition that can be approved and whose collections were
read from a text holds only expressions that can be read. -/
theorem checkPolicy_of_holds (hpolicy : d.HasPolicy) (hread : d.CollectionsRead)
    {place : ExpressionPlace} {expression : String} (h : d.normal.Holds place expression)
    (hplace : place ≠ .members) : checkPolicy expression = .ok () := by
  cases h with
  | definition hsome => exact (hpolicy expression hsome).2
  | members => exact absurd rfl hplace
  | endorsers hpackage hc hsome =>
    obtain ⟨text, htext⟩ := hread _ hpackage
    exact ((collectionsOfJson_ok_iff.1 htext).2 _ hc).endorsed expression hsome

end ChaincodeDefinition

/-! ## Proposals -/

/-- The request is to approve or to commit a definition. -/
inductive Request.Defines : Request → ChaincodeDefinition → Prop
  | approve {d : ChaincodeDefinition} {packageId : Option String} : Defines (.approve d packageId) d
  | commit {d : ChaincodeDefinition} : Defines (.commit d) d

/-- A call approves or commits a definition, which is read from its arguments. -/
inductive ChaincodeSpec.Defines (spec : ChaincodeSpec) (d : ChaincodeDefinition) : Prop
  | approve {args : ApproveChaincodeDefinitionForMyOrgArgs} :
      spec.CallsLifecycle "ApproveChaincodeDefinitionForMyOrg" args → args.definition = .ok d →
      Defines spec d
  | commit {args : CommitChaincodeDefinitionArgs} :
      spec.CallsLifecycle "CommitChaincodeDefinition" args → args.definition = .ok d →
      Defines spec d

/-- The call in a proposal approves or commits a definition. -/
def BuiltProposal.Carries (b : BuiltProposal) (d : ChaincodeDefinition) : Prop :=
  ∃ r : b.proposal.Reading, r.call.chaincodeSpec.Defines d

/-! ### One reading -/

/-- The parts of a proposal are read in one way only. -/
theorem Proposal.Reading.unique {p : Proposal} (r r' : p.Reading) : r = r' := by
  obtain ⟨h, ch, sh, e, pl, c, hh, hch, hsh, he, hpl, hc⟩ := r
  obtain ⟨h', ch', sh', e', pl', c', hh', hch', hsh', he', hpl', hc'⟩ := r'
  cases hh.symm.trans hh'
  cases hch.symm.trans hch'
  cases hsh.symm.trans hsh'
  cases he.symm.trans he'
  cases hpl.symm.trans hpl'
  cases hc.symm.trans hc'
  rfl

namespace ChaincodeSpec

variable {α β : Type} [Message α] [Message β] {spec : ChaincodeSpec} {function function' : String}

theorem CallsLifecycle.function_unique {args : α} {args' : β}
    (h : spec.CallsLifecycle function args) (h' : spec.CallsLifecycle function' args') :
    Utf8.encode function = Utf8.encode function' := by
  obtain ⟨_, hcalls, -⟩ := h
  obtain ⟨_, hcalls', -⟩ := h'
  exact (List.cons.inj (hcalls.args.symm.trans hcalls'.args)).1

theorem CallsLifecycle.args_unique {args args' : α} (h : spec.CallsLifecycle function args)
    (h' : spec.CallsLifecycle function' args') : args = args' := by
  obtain ⟨bytes, hcalls, hargs⟩ := h
  obtain ⟨bytes', hcalls', hargs'⟩ := h'
  obtain ⟨-, hbytes⟩ := List.cons.inj (hcalls.args.symm.trans hcalls'.args)
  cases hbytes
  exact Except.ok.inj (hargs.symm.trans hargs')

theorem Defines.unique {d d' : ChaincodeDefinition} (h : spec.Defines d) (h' : spec.Defines d') :
    d = d' := by
  have hfunctions : Utf8.encode "ApproveChaincodeDefinitionForMyOrg" ≠
      Utf8.encode "CommitChaincodeDefinition" := by decide +kernel
  cases h with
  | approve hcalls hd =>
    cases h' with
    | approve hcalls' hd' =>
      obtain rfl := hcalls.args_unique hcalls'
      exact Except.ok.inj (hd.symm.trans hd')
    | commit hcalls' _ => exact absurd (hcalls.function_unique hcalls') hfunctions
  | commit hcalls hd =>
    cases h' with
    | approve hcalls' _ => exact absurd (hcalls'.function_unique hcalls) hfunctions
    | commit hcalls' hd' =>
      obtain rfl := hcalls.args_unique hcalls'
      exact Except.ok.inj (hd.symm.trans hd')

end ChaincodeSpec

/-- A proposal carries one definition at most. -/
theorem BuiltProposal.Carries.unique {b : BuiltProposal} {d d' : ChaincodeDefinition}
    (h : b.Carries d) (h' : b.Carries d') : d = d' := by
  obtain ⟨r, hr⟩ := h
  obtain ⟨r', hr'⟩ := h'
  obtain rfl := r.unique r'
  exact hr.unique hr'

/-! ### What is built -/

section Building

variable {signer : Signer} {channelId : String} {d : ChaincodeDefinition} {request : Request}
  {headers headers' : HeaderSource} {built : BuiltProposal}

theorem Request.Defines.normal (h : request.Defines d) : request.normal.Defines d.normal := by
  cases h with
  | approve => exact .approve
  | commit => exact .commit

/-- A call that is read as such a request approves or commits the definition. -/
theorem Request.Defines.of_isReadFrom {spec : ChaincodeSpec} {transient : Dict Bytes}
    (h : request.Defines d) (hread : Request.IsReadFrom channelId spec transient request) :
    spec.Defines d := by
  cases h with
  | approve =>
    cases hread with
    | approve hcalls hd => exact .approve hcalls hd
    | call hinvokes => cases hinvokes
  | commit =>
    cases hread with
    | commit hcalls hd => exact .commit hcalls hd
    | call hinvokes => cases hinvokes

theorem Request.Defines.complete_iff (h : request.Defines d) : request.Complete ↔ d.Complete := by
  cases h with
  | approve => exact Iff.rfl
  | commit => exact Iff.rfl

theorem Request.Defines.completeOn_iff (h : request.Defines d) :
    request.CompleteOn channelId ↔ channelId ≠ "" ∧ d.Complete := by
  rw [Request.CompleteOn, h.complete_iff]
  cases h with
  | approve => exact and_congr_left' (imp_iff_right rfl)
  | commit => exact and_congr_left' (imp_iff_right rfl)

/-- A proposal carries the definition that it was built for, in its normal form. -/
theorem carries_of_built (hrequest : request.Defines d)
    (h : buildProposal signer channelId request headers = .ok built headers')
    (hwritable : built.proposal.Writable) : built.Carries d.normal := by
  obtain ⟨channel, spec, transient, nonce, -, hspec, -, rfl, -⟩ := buildProposal_ok_iff.1 h
  obtain ⟨r, -, -, -, -, -, -, hread⟩ : BuiltProposal.Binds (proposalFor
      ⟨signer.identity, nonce⟩ headers.time request.headerType channel spec transient)
      signer.identity channel request.normal :=
    binds_proposalFor hspec (Schema.fits_of_length rfl hwritable.1)
      (Schema.fits_of_length rfl hwritable.2)
  exact ⟨r, hrequest.normal.of_isReadFrom hread⟩

theorem complete_of_built (hrequest : request.Defines d)
    (h : buildProposal signer channelId request headers = .ok built headers') :
    channelId ≠ "" ∧ d.Complete := by
  obtain ⟨channel, spec, transient, nonce, hchannel, hspec, -⟩ := buildProposal_ok_iff.1 h
  exact hrequest.completeOn_iff.1 (exists_callOn_iff.1 ⟨_, callOn_ok_iff.2 ⟨hchannel, hspec⟩⟩)

/-- Another definition that is complete can be proposed in the place of one that was. -/
theorem exists_built_like {other : Request} {d' : ChaincodeDefinition}
    (hrequest : request.Defines d)
    (h : buildProposal signer channelId request headers = .ok built headers')
    (hother : other.Defines d') (hcomplete : d'.Complete) :
    ∃ built', buildProposal signer channelId other headers = .ok built' headers' := by
  obtain ⟨-, -, -, nonce, -, -, hnonce, -, rfl⟩ := buildProposal_ok_iff.1 h
  obtain ⟨⟨channel, spec, transient⟩, hcall⟩ := exists_callOn_iff.2
    (hother.completeOn_iff.2 ⟨(complete_of_built hrequest h).1, hcomplete⟩)
  obtain ⟨hchannel, hspec⟩ := callOn_ok_iff.1 hcall
  exact ⟨_, buildProposal_ok_iff.2 ⟨channel, spec, transient, nonce, hchannel, hspec, hnonce, rfl,
    rfl⟩⟩

/-- What a proposal to approve or to commit a definition says about its policy expressions, where
the collections were read from a text.

The proposal carries one definition, of which every expression can be read, except for those on the
members of collections.  Those are the ones of the text, so all expressions can be read exactly if
these can.  And none of these is ever refused: with whatever other policies on the members the
collections are read from a text and the proposal is built. -/
theorem expressions_of_built (hrequest : request.Defines d) (hread : d.CollectionsRead)
    (h : buildProposal signer channelId request headers = .ok built headers')
    (hwritable : built.proposal.Writable) :
    (∃ sent, (∀ d', built.Carries d' ↔ d' = sent) ∧
      (∀ place expression, sent.Holds place expression → place ≠ .members →
        checkPolicy expression = .ok ()) ∧
      (∀ expression, sent.Holds .members expression ↔ d.Holds .members expression) ∧
      ((∀ place expression, sent.Holds place expression → checkPolicy expression = .ok ()) ↔
        ∀ expression, d.Holds .members expression → checkPolicy expression = .ok ())) ∧
    ∀ (policy : CollectionConfig → String) (other : Request),
      other.Defines (d.withMembers policy) → (d.withMembers policy).CollectionsRead ∧
        ∃ built', buildProposal signer channelId other headers = .ok built' headers' := by
  obtain ⟨-, hfields, hpolicy⟩ := complete_of_built hrequest h
  have hchecked : ∀ place expression, d.normal.Holds place expression → place ≠ .members →
      checkPolicy expression = .ok () := fun _ _ hholds hplace =>
    d.checkPolicy_of_holds hpolicy hread hholds hplace
  have hmembers : ∀ expression, d.normal.Holds .members expression ↔ d.Holds .members expression :=
    fun _ => d.holds_members_normal
  have hcarries : built.Carries d.normal := carries_of_built hrequest h hwritable
  refine ⟨⟨d.normal, fun d' => ⟨fun h' => h'.unique hcarries, fun heq => heq ▸ hcarries⟩, hchecked,
    hmembers, ?_⟩, ?_⟩
  · refine ⟨fun hall e he => hall _ e ((hmembers e).2 he), fun hall place e he => ?_⟩
    by_cases hplace : place = .members
    · subst hplace
      exact hall e ((hmembers e).1 he)
    · exact hchecked place e he hplace
  · intro policy other hother
    exact ⟨hread.withMembers policy, exists_built_like hrequest h hother ⟨hfields, hpolicy⟩⟩

end Building

/-! ### Two auctions -/

/-- Bids among the members that an expression names. -/
def bidsAmong (members : String) : CollectionConfig where
  name := "bids"
  policy := members
  requiredPeerCount := 0
  maxPeerCount := 1
  blockToLive := 0
  memberOnlyRead := false
  memberOnlyWrite := false
  endorsementPolicy := some (.signaturePolicy "'Org1MSP.peer'")

/-- The collection of these bids as a text. -/
def bidsText (members : String) : String :=
  "[\x7b\"name\":\"bids\",\"policy\":\"" ++ members ++ "\",\"requiredPeerCount\":0," ++
    "\"maxPeerCount\":1,\"endorsementPolicy\":\x7b\"SignaturePolicy\":\"'Org1MSP.peer'\"\x7d\x7d]"

/-- An auction with these bids. -/
def auctionAmong (members : String) : ChaincodeDefinition where
  name := "auction"
  version := "1.0"
  sequence := 1
  signaturePolicy := some "'Org1MSP.admin'"
  collections := some ⟨[bidsAmong members]⟩

/-- The call that approves the auction. -/
def approvalAmong (members : String) : ChaincodeSpec :=
  Request.lifecycleCall "ApproveChaincodeDefinitionForMyOrg" <| toWire
    ({ sequence := 1, name := "auction", version := "1.0"
       endorsementPlugin := "", validationPlugin := ""
       validationParameter := toWire (ApplicationPolicy.signaturePolicy "'Org1MSP.admin'")
       collections := some ⟨[bidsAmong members]⟩, initRequired := false
       source := .unavailable } : ApproveChaincodeDefinitionForMyOrgArgs)

theorem spec_approvalAmong (members : String) :
    (Request.approve (auctionAmong members) none).spec "ch" =
      .ok (approvalAmong members, .empty) := by
  have hcheck : checkPolicy "'Org1MSP.admin'" = .ok () := by decide +kernel
  have hparameter : (auctionAmong members).validationParameter =
      .ok (toWire (ApplicationPolicy.signaturePolicy "'Org1MSP.admin'")) := by
    change (checkPolicy "'Org1MSP.admin'" >>= fun _ => _) >>= _ = _
    rw [hcheck]
    rfl
  change ((auctionAmong members).check >>= fun _ =>
    (auctionAmong members).validationParameter >>= fun _ => _) >>= _ = _
  rw [hparameter]
  rfl

theorem exists_built_auction (members : String) :
    ∃ after, buildProposal openSigner "ch" (.approve (auctionAmong members) none) ⟨⟨0, 0⟩, 0⟩ =
      .ok (proposalFor ⟨openSigner.identity, [3]⟩ ⟨0, 0⟩ .endorserTransaction "ch"
        (approvalAmong members) .empty) after :=
  ⟨_, buildProposal_ok_iff.2
    ⟨"ch", _, _, [3], rfl, spec_approvalAmong members, rfl, rfl, rfl⟩⟩

theorem collectionsRead_auction {members : String}
    (h : collectionsOfJson (bidsText members) = .ok ⟨[bidsAmong members]⟩) :
    (auctionAmong members).CollectionsRead := by
  rintro package ⟨⟩
  exact ⟨bidsText members, h⟩

/-- The expressions on the members of an auction are the one of its bids. -/
theorem holds_members_auction {members expression : String} :
    (auctionAmong members).Holds .members expression ↔ expression = members := by
  constructor
  · intro h
    cases h with
    | members hpackage hc =>
      cases hpackage
      rw [List.mem_singleton.1 hc]
      rfl
  · rintro rfl
    exact .members (c := bidsAmong expression) rfl (List.mem_singleton_self _)

/-- All expressions in the approval of an auction among the members of one organization can be
read. -/
theorem expressions_of_built_auction :
    let d := auctionAmong "OR('Org1MSP.member')"
    ∃ built after, d.CollectionsRead ∧
      buildProposal openSigner "ch" (.approve d none) ⟨⟨0, 0⟩, 0⟩ = .ok built after ∧
      built.proposal.Writable ∧ ∃ sent, (∀ d', built.Carries d' ↔ d' = sent) ∧
        sent.Holds .members "OR('Org1MSP.member')" ∧
        ∀ place expression, sent.Holds place expression → checkPolicy expression = .ok () := by
  intro d
  have hread : d.CollectionsRead := collectionsRead_auction (by decide +kernel)
  obtain ⟨after, hbuilt⟩ := exists_built_auction "OR('Org1MSP.member')"
  have hwritable := show Proposal.Writable (proposalFor ⟨openSigner.identity, [3]⟩ ⟨0, 0⟩
    .endorserTransaction "ch" (approvalAmong "OR('Org1MSP.member')") .empty).proposal from
      ⟨by decide +kernel, by decide +kernel⟩
  obtain ⟨⟨sent, hcarries, -, hmembers, hall⟩, -⟩ :=
    expressions_of_built .approve hread hbuilt hwritable
  refine ⟨_, after, hread, hbuilt, hwritable, sent, hcarries, ?_, hall.2 fun e he => ?_⟩
  · exact (hmembers _).2 (holds_members_auction.2 rfl)
  · rw [holds_members_auction.1 he]
    decide +kernel

/-- An expression without its last bracket is read as the policy on the members of a collection, and
a proposal carries it. -/
theorem malformed_membership :
    let d := auctionAmong "OR('Org1MSP.member'"
    ∃ built after, d.CollectionsRead ∧
      buildProposal openSigner "ch" (.approve d none) ⟨⟨0, 0⟩, 0⟩ = .ok built after ∧
      ∃ sent, built.Carries sent ∧ sent.Holds .members "OR('Org1MSP.member'" ∧
        checkPolicy "OR('Org1MSP.member'" ≠ .ok () := by
  intro d
  have hread : d.CollectionsRead := collectionsRead_auction (by decide +kernel)
  obtain ⟨after, hbuilt⟩ := exists_built_auction "OR('Org1MSP.member'"
  refine ⟨_, after, hread, hbuilt, d.normal, carries_of_built .approve hbuilt ?_, ?_, ?_⟩
  · exact ⟨by decide +kernel, by decide +kernel⟩
  · exact d.holds_members_normal.2 (holds_members_auction.2 rfl)
  · decide +kernel

end LedgerClient
