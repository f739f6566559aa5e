import LedgerClient.Proofs.Transaction.Privacy
/-!
# What a proposal carries

A proposal is bound to its header and carries the request that it was built from: all that was
asked is read back from its bytes, in a normal form.

* `Request.normal`: the normal form.  An empty package id or policy and a blank text of transient
  data count as none.  `ChaincodeDefinition.asked`: in a question about readiness sequence zero
  stands for the first one, and the collections, for which it has no place, are left out.
* `Request.IsReadFrom`: a call and its transient data are read as a request.  `isReadFrom_spec`: the
  call that a request makes is read as its normal form.
* `Request.CompleteOn`: all that a request needs is there.  `exists_callOn_iff`: exactly then it
  makes a call.
* `BuiltProposal.Binds`: the headers of a proposal name its creator, channel, transaction and
  chaincode, and the call under them is read as a request.
* `buildProposal_binds`: a complete request is built, and the proposal does so for its normal form;
  a request that is refused takes no nonce.
* `buildProposal_readiness`, `readiness_forgets_collections`: definitions that differ in their
  collections only make the same question.
-/

namespace LedgerClient

/-! ## Definitions -/

/-- The expression or the path that a validation parameter encodes. -/
def policiesOf (parameter : Bytes) : Except ClientError (Option String × Option String) :=
  if parameter.isEmpty then .ok (none, none)
  else do
    match ← decodeMessage ApplicationPolicy parameter with
    | .signaturePolicy expression => return (some expression, none)
    | .channelConfigPolicyReference reference => return (none, some reference)

def ChaincodeSource.packageId? : ChaincodeSource → Option String
  | .localPackage id => some id
  | .unavailable => none

namespace ChaincodeDefinition

/-- A definition in which an empty policy is none. -/
def normal (d : ChaincodeDefinition) : ChaincodeDefinition :=
  { d with
    signaturePolicy := nonEmpty? d.signaturePolicy
    channelConfigPolicy := nonEmpty? d.channelConfigPolicy }

/-- A definition as a question about its readiness takes it. -/
def asked (d : ChaincodeDefinition) : ChaincodeDefinition :=
  { d.normal with
    sequence := if d.sequence = 0 then 1 else d.sequence
    collections := none }

/-- A definition with the policy that a validation parameter encodes. -/
def withParameter (d : ChaincodeDefinition) (parameter : Bytes) :
    Except ClientError ChaincodeDefinition := do
  let (signaturePolicy, channelConfigPolicy) ← policiesOf parameter
  return { d with signaturePolicy := signaturePolicy, channelConfigPolicy := channelConfigPolicy }

end ChaincodeDefinition

def ApproveChaincodeDefinitionForMyOrgArgs.definition
    (a : ApproveChaincodeDefinitionForMyOrgArgs) : Except ClientError ChaincodeDefinition :=
  ChaincodeDefinition.withParameter
    { name := a.name, version := a.version, sequence := a.sequence
      endorsementPlugin := a.endorsementPlugin, validationPlugin := a.validationPlugin
      collections := a.collections, initRequired := a.initRequired } a.validationParameter

def CommitChaincodeDefinitionArgs.definition (a : CommitChaincodeDefinitionArgs) :
    Except ClientError ChaincodeDefinition :=
  ChaincodeDefinition.withParameter
    { name := a.name, version := a.version, sequence := a.sequence
      endorsementPlugin := a.endorsementPlugin, validationPlugin := a.validationPlugin
      collections := a.collections, initRequired := a.initRequired } a.validationParameter

/-- The arguments hold no collections. -/
def CheckCommitReadinessArgs.definition (a : CheckCommitReadinessArgs) :
    Except ClientError ChaincodeDefinition :=
  ChaincodeDefinition.withParameter
    { name := a.name, version := a.version, sequence := a.sequence
      endorsementPlugin := a.endorsementPlugin, validationPlugin := a.validationPlugin
      initRequired := a.initRequired } a.validationParameter

section Definitions

variable {d : ChaincodeDefinition} {parameter : Bytes}

theorem policiesOf_toWire {policy : ApplicationPolicy} (h : (toWire policy).length < 2 ^ 32) :
    policiesOf (toWire policy) = match policy with
      | .signaturePolicy expression => .ok (some expression, none)
      | .channelConfigPolicyReference reference => .ok (none, some reference) := by
  have hne : (toWire policy).isEmpty = false := by
    cases policy <;> rfl
  rw [policiesOf, hne, decodeMessage_of_length rfl rfl h]
  cases policy <;> rfl

/-- The policies of a definition are read back, except that an empty one is none. -/
theorem policiesOf_validationParameter (h : d.validationParameter = .ok parameter)
    (hlength : parameter.length < 2 ^ 32) :
    policiesOf parameter =
      .ok (nonEmpty? d.signaturePolicy, nonEmpty? d.channelConfigPolicy) := by
  obtain ⟨policy?, hpolicy, hparameter⟩ := except_bind_ok.1 h
  rw [applicationPolicy?] at hpolicy
  cases hsignature : nonEmpty? d.signaturePolicy with
  | none =>
    cases hchannel : nonEmpty? d.channelConfigPolicy with
    | none =>
      rw [hsignature, hchannel] at hpolicy
      cases hpolicy
      cases hparameter
      rfl
    | some reference =>
      rw [hsignature, hchannel] at hpolicy
      cases hpolicy
      cases hparameter
      exact policiesOf_toWire hlength
  | some expression =>
    cases hchannel : nonEmpty? d.channelConfigPolicy with
    | none =>
      rw [hsignature, hchannel] at hpolicy
      obtain ⟨_, -, hreturn⟩ := except_bind_ok.1 hpolicy
      cases hreturn
      cases hparameter
      exact policiesOf_toWire hlength
    | some reference =>
      rw [hsignature, hchannel] at hpolicy
      cases hpolicy

theorem withParameter_eq (h : d.validationParameter = .ok parameter)
    (hlength : parameter.length < 2 ^ 32) (other : ChaincodeDefinition) :
    other.withParameter parameter = .ok { other with
      signaturePolicy := nonEmpty? d.signaturePolicy
      channelConfigPolicy := nonEmpty? d.channelConfigPolicy } := by
  rw [ChaincodeDefinition.withParameter, policiesOf_validationParameter h hlength]
  rfl

theorem packageId?_sourceOf (packageId : Option String) :
    (Request.sourceOf packageId).packageId? = nonEmpty? packageId := by
  rw [Request.sourceOf]
  cases nonEmpty? packageId <;> rfl

theorem definition_of_approveArgs {packageId : Option String}
    {args : ApproveChaincodeDefinitionForMyOrgArgs}
    (h : Request.approveArgs d packageId = .ok args)
    (hlength : (toWire args).length < 2 ^ 32) :
    args.definition = .ok d.normal ∧ args.source.packageId? = nonEmpty? packageId := by
  have hparameter := (Schema.fits_of_length rfl hlength).2.2.2.2.2.1
  obtain ⟨_, -, hargs⟩ := except_bind_ok.1 h
  obtain ⟨parameter, hencoded, hreturn⟩ := except_bind_ok.1 hargs
  cases hreturn
  exact ⟨withParameter_eq hencoded hparameter _, packageId?_sourceOf packageId⟩

theorem definition_of_commitArgs {args : CommitChaincodeDefinitionArgs}
    (h : Request.commitArgs d = .ok args) (hlength : (toWire args).length < 2 ^ 32) :
    args.definition = .ok d.normal := by
  have hparameter := (Schema.fits_of_length rfl hlength).2.2.2.2.2.1
  obtain ⟨_, -, hargs⟩ := except_bind_ok.1 h
  obtain ⟨parameter, hencoded, hreturn⟩ := except_bind_ok.1 hargs
  cases hreturn
  exact withParameter_eq hencoded hparameter _

theorem definition_of_readinessArgs {args : CheckCommitReadinessArgs}
    (h : Request.readinessArgs d = .ok args) (hlength : (toWire args).length < 2 ^ 32) :
    args.definition = .ok d.asked := by
  have hparameter := (Schema.fits_of_length rfl hlength).2.2.2.2.2.1
  obtain ⟨_, -, hargs⟩ := except_bind_ok.1 h
  obtain ⟨parameter, hencoded, hreturn⟩ := except_bind_ok.1 hargs
  cases hreturn
  exact withParameter_eq hencoded hparameter _

end Definitions

/-! ## Requests -/

/-- An invocation in which a blank text of transient data is none. -/
def Invocation.normal (i : Invocation) : Invocation :=
  { i with transient := i.transient.filter fun text => !(trimBlank text.toList).isEmpty }

theorem Invocation.transientMap_normal (i : Invocation) :
    i.normal.transientMap = i.transientMap := by
  rw [transientMap, transientMap, normal]
  cases i.transient with
  | none => rfl
  | some text =>
    cases hblank : (trimBlank text.toList).isEmpty with
    | true =>
      rw [Option.filter_some_neg (by rw [hblank]; decide)]
      exact (if_pos hblank).symm
    | false => rw [Option.filter_some_pos (by rw [hblank]; rfl)]

namespace ChaincodeSpec

/-- The call of a function of a system chaincode. -/
structure CallsSystem (spec : ChaincodeSpec) (name : String) (lang : ChaincodeLang)
    (function : String) (args : List Bytes) : Prop where
  chaincodeId : spec.chaincodeId = { path := "", name := name, version := "" }
  lang : spec.lang = lang
  args : spec.input.args = Utf8.encode function :: args
  isInit : spec.input.isInit = false

/-- The call of a lifecycle function, whose argument is read as a message. -/
def CallsLifecycle {α : Type} [Message α] (spec : ChaincodeSpec) (function : String) (args : α) :
    Prop :=
  ∃ bytes, spec.CallsSystem "_lifecycle" .undefined function [bytes] ∧
    decodeMessage α bytes = .ok args

end ChaincodeSpec

namespace Request

/-- A request in which what counts as none is none. -/
def normal : Request → Request
  | approve d packageId => approve d.normal (nonEmpty? packageId)
  | commit d => commit d.normal
  | checkCommitReadiness d => checkCommitReadiness d.asked
  | invoke i => invoke i.normal
  | query i => query i.normal
  | sendOnly i => sendOnly i.normal
  | r => r

/-- A call with its transient data, on a certain channel, is read as a request. -/
inductive IsReadFrom (channelId : String) (spec : ChaincodeSpec) : Dict Bytes → Request → Prop
  | install {args : InstallChaincodeArgs} : spec.CallsLifecycle "InstallChaincode" args →
      IsReadFrom channelId spec .empty (.install args.chaincodeInstallPackage)
  | approve {args : ApproveChaincodeDefinitionForMyOrgArgs} {d : ChaincodeDefinition} :
      spec.CallsLifecycle "ApproveChaincodeDefinitionForMyOrg" args → args.definition = .ok d →
      IsReadFrom channelId spec .empty (.approve d args.source.packageId?)
  | commit {args : CommitChaincodeDefinitionArgs} {d : ChaincodeDefinition} :
      spec.CallsLifecycle "CommitChaincodeDefinition" args → args.definition = .ok d →
      IsReadFrom channelId spec .empty (.commit d)
  | checkCommitReadiness {args : CheckCommitReadinessArgs} {d : ChaincodeDefinition} :
      spec.CallsLifecycle "CheckCommitReadiness" args → args.definition = .ok d →
      IsReadFrom channelId spec .empty (.checkCommitReadiness d)
  | queryInstalled {args : QueryInstalledChaincodesArgs} :
      spec.CallsLifecycle "QueryInstalledChaincodes" args →
      IsReadFrom channelId spec .empty .queryInstalled
  | queryApproved {args : QueryApprovedChaincodeDefinitionArgs} :
      spec.CallsLifecycle "QueryApprovedChaincodeDefinition" args →
      IsReadFrom channelId spec .empty (.queryApproved args.name args.sequence)
  | queryOne {args : QueryChaincodeDefinitionArgs} :
      spec.CallsLifecycle "QueryChaincodeDefinition" args →
      IsReadFrom channelId spec .empty (.queryCommitted (some args.name))
  | queryAll {args : QueryChaincodeDefinitionsArgs} :
      spec.CallsLifecycle "QueryChaincodeDefinitions" args →
      IsReadFrom channelId spec .empty (.queryCommitted none)
  | call {r : Request} {i : Invocation} {transient : Dict Bytes} : r.Calls i → spec = i.spec →
      i.transientMap = .ok transient → IsReadFrom channelId spec transient r
  | joinChannel {genesisBlock : Bytes} :
      spec.CallsSystem "cscc" .golang "JoinChain" [genesisBlock] →
      IsReadFrom channelId spec .empty (.joinChannel genesisBlock)
  | listChannels : spec.CallsSystem "cscc" .golang "GetChannels" [] →
      IsReadFrom channelId spec .empty .listChannels
  | chainInfo : spec.CallsSystem "qscc" .golang "GetChainInfo" [Utf8.encode channelId] →
      IsReadFrom channelId spec .empty .chainInfo

theorem headerType_normal (request : Request) :
    request.normal.headerType = request.headerType := by
  cases request <;> rfl

theorem callsSystem_systemCall (name : String) (lang : ChaincodeLang) (function : String)
    (args : List Bytes) :
    (systemCall name lang function args).CallsSystem name lang function args :=
  ⟨rfl, rfl, rfl, rfl⟩

/-- The argument of a lifecycle function is read back. -/
theorem callsLifecycle_lifecycleCall {α : Type} [Message α] (function : String) {args : α}
    (hnarrow : (schema α).narrow = true) (hcounted : (schema α).counted = true)
    (hlength : (toWire args).length < 2 ^ 32) :
    (lifecycleCall function (toWire args)).CallsLifecycle function args :=
  ⟨toWire args, callsSystem_systemCall _ _ _ _, decodeMessage_of_length hnarrow hcounted hlength⟩

theorem spec_of_invocationSpec {i : Invocation} {spec : ChaincodeSpec} {transient : Dict Bytes}
    (h : invocationSpec i = .ok (spec, transient)) :
    spec = i.normal.spec ∧ i.normal.transientMap = .ok transient := by
  rw [invocationSpec] at h
  split at h
  · cases h
  · obtain ⟨m, hm, hreturn⟩ := except_bind_ok.1 h
    cases hreturn
    exact ⟨rfl, i.transientMap_normal.trans hm⟩

/-- The call of a user is read back. -/
theorem isReadFrom_invocationSpec {channelId : String} {r : Request} {i : Invocation}
    {spec : ChaincodeSpec} {transient : Dict Bytes} (hr : r.Calls i.normal)
    (h : invocationSpec i = .ok (spec, transient)) : IsReadFrom channelId spec transient r := by
  obtain ⟨hspec, htransient⟩ := spec_of_invocationSpec h
  exact .call hr hspec htransient

/-- The call that a request makes is read as the request, if its arguments can be written. -/
theorem isReadFrom_spec {channelId : String} {request : Request} {spec : ChaincodeSpec}
    {transient : Dict Bytes} (h : request.spec channelId = .ok (spec, transient))
    (hlength : ∀ bytes ∈ spec.input.args, bytes.length < 2 ^ 32) :
    IsReadFrom channelId spec transient request.normal := by
  have hargument : ∀ {function : String} {bytes : Bytes}, spec = lifecycleCall function bytes →
      bytes.length < 2 ^ 32 := by
    rintro function bytes rfl
    exact hlength _ (List.mem_cons_of_mem _ (List.mem_singleton_self _))
  cases request with
  | install package =>
    rw [Request.spec] at h
    split at h
    · cases h
    cases h
    exact .install (callsLifecycle_lifecycleCall _ rfl rfl (hargument rfl))
  | approve d packageId =>
    obtain ⟨args, hargs, hreturn⟩ := except_bind_ok.1 h
    cases hreturn
    obtain ⟨hdefinition, hsource⟩ := definition_of_approveArgs hargs (hargument rfl)
    rw [normal, ← hsource]
    exact .approve (callsLifecycle_lifecycleCall _ rfl rfl (hargument rfl)) hdefinition
  | commit d =>
    obtain ⟨args, hargs, hreturn⟩ := except_bind_ok.1 h
    cases hreturn
    exact .commit (callsLifecycle_lifecycleCall _ rfl rfl (hargument rfl))
      (definition_of_commitArgs hargs (hargument rfl))
  | checkCommitReadiness d =>
    obtain ⟨args, hargs, hreturn⟩ := except_bind_ok.1 h
    cases hreturn
    exact .checkCommitReadiness (callsLifecycle_lifecycleCall _ rfl rfl (hargument rfl))
      (definition_of_readinessArgs hargs (hargument rfl))
  | queryInstalled =>
    cases h
    exact .queryInstalled (callsLifecycle_lifecycleCall _ rfl rfl (hargument rfl))
  | queryApproved name sequence =>
    cases h
    exact .queryApproved (callsLifecycle_lifecycleCall _ rfl rfl (hargument rfl))
  | queryCommitted name =>
    cases name with
    | none =>
      cases h
      exact .queryAll (callsLifecycle_lifecycleCall _ rfl rfl (hargument rfl))
    | some name =>
      cases h
      exact .queryOne (callsLifecycle_lifecycleCall _ rfl rfl (hargument rfl))
  | invoke i => exact isReadFrom_invocationSpec .invoke h
  | query i => exact isReadFrom_invocationSpec .query h
  | sendOnly i => exact isReadFrom_invocationSpec .sendOnly h
  | joinChannel genesisBlock =>
    rw [Request.spec] at h
    split at h
    · cases h
    cases h
    exact .joinChannel (callsSystem_systemCall _ _ _ _)
  | listChannels =>
    cases h
    exact .listChannels (callsSystem_systemCall _ _ _ _)
  | chainInfo =>
    cases h
    exact .chainInfo (callsSystem_systemCall _ _ _ _)

end Request

/-! ## Complete requests -/

namespace ChaincodeDefinition

/-- One policy at most is given, and an expression can be read. -/
def HasPolicy (d : ChaincodeDefinition) : Prop :=
  ∀ expression, nonEmpty? d.signaturePolicy = some expression →
    nonEmpty? d.channelConfigPolicy = none ∧ checkPolicy expression = .ok ()

/-- A definition that can be approved and committed. -/
def Complete (d : ChaincodeDefinition) : Prop :=
  (d.name ≠ "" ∧ d.version ≠ "" ∧ 0 < d.sequence) ∧ d.HasPolicy

end ChaincodeDefinition

/-- The chaincode is named, and the transient data can be read. -/
def Invocation.Complete (i : Invocation) : Prop :=
  i.chaincode.name ≠ "" ∧ ∃ transient, i.transientMap = .ok transient

/-- All that a request needs is there. -/
def Request.Complete : Request → Prop
  | install package => package ≠ []
  | approve d _ => d.Complete
  | commit d => d.Complete
  | checkCommitReadiness d => d.name ≠ "" ∧ d.HasPolicy
  | invoke i => i.Complete
  | query i => i.Complete
  | sendOnly i => i.Complete
  | joinChannel genesisBlock => genesisBlock ≠ []
  | _ => True

/-- The request is complete, and a channel is named if it is for one. -/
def Request.CompleteOn (request : Request) (channelId : String) : Prop :=
  (request.isChannelScoped = true → channelId ≠ "") ∧ request.Complete

/-- The channel that the header of a request on a channel names. -/
def Request.headerChannel (request : Request) (channelId : String) : String :=
  if request.isChannelScoped then channelId else ""

/-- The channel in the header of a request, and the call with its transient data. -/
def Request.callOn (request : Request) (channelId : String) :
    Except ClientError (String × ChaincodeSpec × Dict Bytes) := do
  let channel ← channelFor request channelId
  let (spec, transient) ← request.spec channel
  return (channel, spec, transient)

section Completeness

variable {d : ChaincodeDefinition} {request : Request} {channelId channel : String}
  {spec : ChaincodeSpec} {transient : Dict Bytes}

theorem exists_bind_pure_iff {α β : Type} {x : Except ClientError α} {f : α → β} :
    (∃ b, (x >>= fun a => pure (f a)) = .ok b) ↔ ∃ a, x = .ok a := by
  simp only [except_bind_ok]
  exact ⟨fun ⟨_, a, ha, _⟩ => ⟨a, ha⟩, fun ⟨a, ha⟩ => ⟨_, a, ha, rfl⟩⟩

theorem exists_bind_unit_iff {β : Type} {x : Except ClientError Unit} {y : Except ClientError β} :
    (∃ b, (x >>= fun _ => y) = .ok b) ↔ x = .ok () ∧ ∃ b, y = .ok b := by
  simp only [except_bind_ok]
  exact ⟨fun ⟨b, _, hx, hy⟩ => ⟨hx, b, hy⟩, fun ⟨hx, b, hy⟩ => ⟨b, (), hx, hy⟩⟩

theorem exists_validationParameter_iff :
    (∃ parameter, d.validationParameter = .ok parameter) ↔ d.HasPolicy := by
  rw [ChaincodeDefinition.validationParameter, applicationPolicy, applicationPolicy?,
    ChaincodeDefinition.HasPolicy]
  cases nonEmpty? d.signaturePolicy with
  | none =>
    refine ⟨fun _ => nofun, fun _ => ?_⟩
    cases nonEmpty? d.channelConfigPolicy with
    | none => exact ⟨_, rfl⟩
    | some reference => exact ⟨_, rfl⟩
  | some expression =>
    cases nonEmpty? d.channelConfigPolicy with
    | none =>
      change (∃ parameter, ((checkPolicy expression >>= fun _ => _) >>= _) = _) ↔ _
      cases hcheck : checkPolicy expression with
      | error e =>
        refine ⟨fun ⟨_, h⟩ => (nomatch h), fun h => ?_⟩
        cases hcheck.symm.trans (h expression rfl).2
      | ok u =>
        refine ⟨fun _ other hother => ?_, fun _ => ⟨_, rfl⟩⟩
        cases hother
        exact ⟨rfl, hcheck⟩
    | some reference =>
      refine ⟨fun ⟨_, h⟩ => (nomatch h), fun h => ?_⟩
      cases (h expression rfl).1

/-- The arguments of a lifecycle function are made after a check. -/
theorem exists_checked_iff {β : Type} {x : Except ClientError Unit} {f : Bytes → β} :
    (∃ b, (x >>= fun _ => d.validationParameter >>= fun parameter => pure (f parameter)) = .ok b) ↔
      x = .ok () ∧ d.HasPolicy :=
  exists_bind_unit_iff.trans
    (and_congr_right fun _ => exists_bind_pure_iff.trans exists_validationParameter_iff)

theorem checkName_ok_iff : d.checkName = .ok () ↔ d.name ≠ "" := by
  rw [ChaincodeDefinition.checkName]
  by_cases hname : d.name.isEmpty = true
  · rw [if_pos hname]
    exact ⟨fun h => (nomatch h), fun h => absurd (String.isEmpty_iff.1 hname) h⟩
  · rw [if_neg hname]
    exact ⟨fun _ => mt String.isEmpty_iff.2 hname, fun _ => rfl⟩

theorem check_ok_iff : d.check = .ok () ↔ d.name ≠ "" ∧ d.version ≠ "" ∧ 0 < d.sequence := by
  rw [ChaincodeDefinition.check, except_bind_ok, ← checkName_ok_iff, ← Int64.not_le]
  by_cases hversion : d.version.isEmpty = true
  · rw [if_pos hversion]
    exact ⟨fun ⟨_, _, h⟩ => (nomatch h), fun h => absurd (String.isEmpty_iff.1 hversion) h.2.1⟩
  · rw [if_neg hversion]
    dsimp only
    by_cases hsequence : d.sequence ≤ 0
    · rw [if_pos hsequence]
      exact ⟨fun ⟨_, _, h⟩ => (nomatch h), fun h => absurd hsequence h.2.2⟩
    · rw [if_neg hsequence]
      exact ⟨fun ⟨_, hname, _⟩ => ⟨hname, mt String.isEmpty_iff.2 hversion, hsequence⟩,
        fun ⟨hname, _, _⟩ => ⟨(), hname, rfl⟩⟩

theorem exists_invocationSpec_iff {i : Invocation} :
    (∃ made, Request.invocationSpec i = .ok made) ↔ i.Complete := by
  rw [Request.invocationSpec, Invocation.Complete]
  by_cases hname : i.chaincode.name.isEmpty = true
  · rw [if_pos hname]
    constructor
    · rintro ⟨_, h⟩
      cases h
    · intro h
      exact absurd (String.isEmpty_iff.1 hname) h.1
  · rw [if_neg hname]
    exact exists_bind_pure_iff.trans (and_iff_right (mt String.isEmpty_iff.2 hname)).symm

/-- A request makes a call exactly if it is complete, on whatever channel. -/
theorem exists_spec_iff (channelId : String) :
    (∃ made, request.spec channelId = .ok made) ↔ request.Complete := by
  cases request with
  | install package =>
    cases package with
    | nil => exact ⟨fun ⟨_, h⟩ => (nomatch h), fun h => absurd rfl h⟩
    | cons _ _ => exact ⟨fun _ => List.cons_ne_nil _ _, fun _ => ⟨_, rfl⟩⟩
  | approve d packageId =>
    exact exists_bind_pure_iff.trans (exists_checked_iff.trans (and_congr_left' check_ok_iff))
  | commit d =>
    exact exists_bind_pure_iff.trans (exists_checked_iff.trans (and_congr_left' check_ok_iff))
  | checkCommitReadiness d =>
    exact exists_bind_pure_iff.trans (exists_checked_iff.trans (and_congr_left' checkName_ok_iff))
  | queryInstalled => exact ⟨fun _ => trivial, fun _ => ⟨_, rfl⟩⟩
  | queryApproved _ _ => exact ⟨fun _ => trivial, fun _ => ⟨_, rfl⟩⟩
  | queryCommitted name => cases name <;> exact ⟨fun _ => trivial, fun _ => ⟨_, rfl⟩⟩
  | invoke i => exact exists_invocationSpec_iff
  | query i => exact exists_invocationSpec_iff
  | sendOnly i => exact exists_invocationSpec_iff
  | joinChannel genesisBlock =>
    cases genesisBlock with
    | nil => exact ⟨fun ⟨_, h⟩ => (nomatch h), fun h => absurd rfl h⟩
    | cons _ _ => exact ⟨fun _ => List.cons_ne_nil _ _, fun _ => ⟨_, rfl⟩⟩
  | listChannels => exact ⟨fun _ => trivial, fun _ => ⟨_, rfl⟩⟩
  | chainInfo => exact ⟨fun _ => trivial, fun _ => ⟨_, rfl⟩⟩

theorem channelFor_ok_iff :
    channelFor request channelId = .ok channel ↔
      (request.isChannelScoped = true → channelId ≠ "") ∧
        channel = request.headerChannel channelId := by
  rw [channelFor, Request.headerChannel]
  cases request.isChannelScoped with
  | false => exact ⟨fun h => ⟨nofun, (Except.ok.inj h).symm⟩, fun h => h.2 ▸ rfl⟩
  | true =>
    rw [if_neg (by decide), if_pos rfl]
    by_cases hempty : channelId.isEmpty = true
    · rw [if_pos hempty]
      exact ⟨fun h => (nomatch h), fun h => absurd (String.isEmpty_iff.1 hempty) (h.1 rfl)⟩
    · rw [if_neg hempty]
      exact ⟨fun h => ⟨fun _ => mt String.isEmpty_iff.2 hempty, (Except.ok.inj h).symm⟩,
        fun h => h.2 ▸ rfl⟩

theorem callOn_ok_iff : request.callOn channelId = .ok (channel, spec, transient) ↔
    channelFor request channelId = .ok channel ∧ request.spec channel = .ok (spec, transient) := by
  rw [Request.callOn, except_bind_ok]
  constructor
  · rintro ⟨_, hchannel, hrest⟩
    obtain ⟨_, hspec, hreturn⟩ := except_bind_ok.1 hrest
    cases hreturn
    exact ⟨hchannel, hspec⟩
  · rintro ⟨hchannel, hspec⟩
    exact ⟨channel, hchannel, except_bind_ok.2 ⟨_, hspec, rfl⟩⟩

theorem exists_callOn_iff :
    (∃ made, request.callOn channelId = .ok made) ↔ request.CompleteOn channelId := by
  constructor
  · rintro ⟨⟨channel, spec, transient⟩, h⟩
    obtain ⟨hchannel, hspec⟩ := callOn_ok_iff.1 h
    exact ⟨(channelFor_ok_iff.1 hchannel).1, (exists_spec_iff _).1 ⟨_, hspec⟩⟩
  · rintro ⟨hchannel, hcomplete⟩
    obtain ⟨⟨spec, transient⟩, hspec⟩ := (exists_spec_iff _).2 hcomplete
    exact ⟨_, callOn_ok_iff.2 ⟨channelFor_ok_iff.2 ⟨hchannel, rfl⟩, hspec⟩⟩

end Completeness

/-! ## Proposals -/

/-- The parts of a proposal, read out of its bytes. -/
structure Proposal.Reading (p : Proposal) where
  header : Header
  channelHeader : ChannelHeader
  signatureHeader : SignatureHeader
  extension : ChaincodeHeaderExtension
  payload : ChaincodeProposalPayload
  call : ChaincodeInvocationSpec
  header_eq : decodeMessage Header p.header = .ok header
  channelHeader_eq : decodeMessage ChannelHeader header.channelHeader = .ok channelHeader
  signatureHeader_eq : decodeMessage SignatureHeader header.signatureHeader = .ok signatureHeader
  extension_eq : decodeMessage ChaincodeHeaderExtension channelHeader.extension = .ok extension
  payload_eq : decodeMessage ChaincodeProposalPayload p.payload = .ok payload
  call_eq : decodeMessage ChaincodeInvocationSpec payload.input = .ok call

/-- A proposal is read back: its headers name the transaction, the creator, the channel, the kind of
a request and the chaincode that it calls, and the call is read as this request. -/
def BuiltProposal.Binds (b : BuiltProposal) (creator : Bytes) (channelId : String)
    (request : Request) : Prop :=
  ∃ r : b.proposal.Reading, b.txId = txIdOf r.signatureHeader ∧ r.channelHeader.txId = b.txId ∧
    r.signatureHeader.creator = creator ∧ r.channelHeader.channelId = channelId ∧
    r.channelHeader.headerType = request.headerType ∧
    r.extension.chaincodeId = r.call.chaincodeSpec.chaincodeId ∧
    Request.IsReadFrom channelId r.call.chaincodeSpec r.payload.transientMap request

/-- What the endorsers get of a call. -/
def callPayload (spec : ChaincodeSpec) (transient : Dict Bytes) : ChaincodeProposalPayload where
  input := toWire ({ chaincodeSpec := spec } : ChaincodeInvocationSpec)
  transientMap := transient

section Building

variable {signer : Signer} {channelId channel : String} {request : Request}
  {headers : HeaderSource} {header : SignatureHeader} {time : Timestamp}
  {spec : ChaincodeSpec} {transient : Dict Bytes}

/-- A proposal whose parts can be written is read back. -/
theorem binds_proposalFor (h : request.spec channel = .ok (spec, transient))
    (hheader : (schema Header).Fits (pack (proposalHeader header time request.headerType channel
      spec)))
    (hpayload : (schema ChaincodeProposalPayload).Fits (pack (callPayload spec transient))) :
    (proposalFor header time request.headerType channel spec transient).Binds header.creator channel
      request.normal := by
  have hchannel : (toWire (proposalChannelHeader header time request.headerType channel
      spec)).length < 2 ^ 32 := hheader.1
  have hsignature : (toWire header).length < 2 ^ 32 := hheader.2.1
  have hextension : (toWire ({ chaincodeId := spec.chaincodeId } :
      ChaincodeHeaderExtension)).length < 2 ^ 32 :=
    (Schema.fits_of_length rfl hchannel).2.2.2.2.2.2.1
  have hcall : (toWire ({ chaincodeSpec := spec } : ChaincodeInvocationSpec)).length < 2 ^ 32 :=
    hpayload.1
  have hargs : ∀ bytes ∈ spec.input.args, bytes.length < 2 ^ 32 := by
    intro bytes hbytes
    exact (Schema.fits_of_length rfl hcall).1.2.2.1.1.2 _ (List.mem_map_of_mem hbytes)
  refine ⟨⟨_, _, _, _, _, _, decodeMessage_toWire rfl hheader,
    decodeMessage_of_length rfl rfl hchannel, decodeMessage_of_length rfl rfl hsignature,
    decodeMessage_of_length rfl rfl hextension, decodeMessage_toWire rfl hpayload,
    decodeMessage_of_length rfl rfl hcall⟩, rfl, rfl, rfl, rfl, ?_, rfl,
    Request.isReadFrom_spec h hargs⟩
  exact request.headerType_normal.symm

/-- A request without a call is refused, whoever makes it. -/
theorem buildProposal_of_callOn_error {e : ClientError}
    (h : request.callOn channelId = .error e) :
    buildProposal signer channelId request headers = .error e headers := by
  rw [buildProposal]
  rcases except_bind_error.1 h with hchannel | ⟨channel, hchannel, hrest⟩
  · rw [hchannel]
    rfl
  · rw [hchannel]
    change EStateM.bind (liftM (request.spec channel) : Issuing _) _ headers = _
    rcases except_bind_error.1 hrest with hspec | ⟨_, -, hreturn⟩
    · rw [hspec]
      rfl
    · cases hreturn

/-- A call is proposed under a new header of the signer. -/
theorem buildProposal_of_callOn (h : request.callOn channelId = .ok (channel, spec, transient)) :
    buildProposal signer channelId request headers = match signer.nonce headers.drawn with
      | .error e => .error e headers
      | .ok nonce =>
        .ok (proposalFor ⟨signer.identity, nonce⟩ headers.time request.headerType channel spec
          transient) { headers with drawn := headers.drawn + 1 } := by
  obtain ⟨hchannel, hspec⟩ := callOn_ok_iff.1 h
  rw [buildProposal, hchannel]
  change EStateM.bind (liftM (request.spec channel) : Issuing _) _ headers = _
  rw [hspec]
  change EStateM.bind signer.newHeader _ headers = _
  rw [EStateM.bind, newHeader_eq]
  cases signer.nonce headers.drawn with
  | error e => rfl
  | ok nonce => rfl

/-- A complete request of a signer with a nonce is built.  The proposal is bound to its header and
carries the request in its normal form, if its header and its payload can be written.  Where none is
built no nonce is taken; then the signer has none, or the request is refused whoever makes it. -/
theorem buildProposal_binds (signer : Signer) (channelId : String) (request : Request)
    (headers : HeaderSource) :
    (request.CompleteOn channelId ∧ ∃ built header payload,
      buildProposal signer channelId request headers =
        .ok built { headers with drawn := headers.drawn + 1 } ∧
      built.proposal = { header := toWire header, payload := toWire payload } ∧
      ((schema Header).Fits (pack (header : Header)) →
        (schema ChaincodeProposalPayload).Fits (pack (payload : ChaincodeProposalPayload)) →
        built.Binds signer.identity (request.headerChannel channelId) request.normal)) ∨
    ∃ e, buildProposal signer channelId request headers = .error e headers ∧
      (signer.nonce headers.drawn = .error e ∨ ¬request.CompleteOn channelId ∧
        ∀ other headers', buildProposal other channelId request headers' = .error e headers') := by
  cases hcall : request.callOn channelId with
  | error e =>
    have hincomplete : ¬request.CompleteOn channelId := by
      intro hcomplete
      obtain ⟨made, hmade⟩ := exists_callOn_iff.2 hcomplete
      cases hcall.symm.trans hmade
    exact .inr ⟨e, buildProposal_of_callOn_error hcall,
      .inr ⟨hincomplete, fun _ _ => buildProposal_of_callOn_error hcall⟩⟩
  | ok made =>
    obtain ⟨channel, spec, transient⟩ := made
    obtain ⟨hchannel, hspec⟩ := callOn_ok_iff.1 hcall
    obtain ⟨-, rfl⟩ := channelFor_ok_iff.1 hchannel
    rw [buildProposal_of_callOn hcall]
    cases hnonce : signer.nonce headers.drawn with
    | error e => exact .inr ⟨e, rfl, .inl rfl⟩
    | ok nonce =>
      refine .inl ⟨exists_callOn_iff.1 ⟨_, hcall⟩, _, proposalHeader ⟨signer.identity, nonce⟩
        headers.time request.headerType _ spec, callPayload spec transient, rfl, rfl, ?_⟩
      exact fun hheader hpayload => binds_proposalFor hspec hheader hpayload

/-- Collections make no difference to a question about readiness. -/
theorem buildProposal_readiness (d : ChaincodeDefinition)
    (collections : Option CollectionConfigPackage) :
    buildProposal signer channelId (.checkCommitReadiness { d with collections := collections })
        headers = buildProposal signer channelId (.checkCommitReadiness d) headers := rfl

end Building

/-- An auction whose bids are private. -/
def auction : ChaincodeDefinition where
  name := "auction"
  version := "1.0"
  sequence := 1
  signaturePolicy := some ""
  channelConfigPolicy := some "/Channel/Application/Endorsement"
  collections := some ⟨[{
    name := "bids", policy := "OR('Org1MSP.member')", requiredPeerCount := 0, maxPeerCount := 1
    blockToLive := 0, memberOnlyRead := true, memberOnlyWrite := false
    endorsementPolicy := none }]⟩

/-- The approval of the auction carries all of it, except for the empty policy and the empty package
id. -/
theorem buildProposal_binds_auction :
    ∃ built after,
      buildProposal openSigner "ch" (.approve auction (some "")) ⟨⟨0, 0⟩, 0⟩ = .ok built after ∧
      built.Binds openSigner.identity "ch"
        (.approve { auction with signaturePolicy := none } none) := by
  rcases buildProposal_binds openSigner "ch" (.approve auction (some "")) ⟨⟨0, 0⟩, 0⟩ with
    ⟨-, built, header, payload, hbuilt, hbytes, hbinds⟩ | ⟨e, herror, -⟩
  · have hshort : built.proposal.Writable := by
      cases hbuilt
      exact ⟨by decide +kernel, by decide +kernel⟩
    rw [hbytes] at hshort
    exact ⟨built, _, hbuilt, hbinds (Schema.fits_of_length rfl hshort.1)
      (Schema.fits_of_length rfl hshort.2)⟩
  · cases herror

/-- Questions about the readiness of the auction with its collection and without are the same, while
proposals to commit it are not. -/
theorem readiness_forgets_collections :
    ∃ built committed committed' after,
      buildProposal openSigner "ch" (.checkCommitReadiness auction) ⟨⟨0, 0⟩, 0⟩ =
        .ok built after ∧
      buildProposal openSigner "ch" (.checkCommitReadiness { auction with collections := none })
        ⟨⟨0, 0⟩, 0⟩ = .ok built after ∧
      buildProposal openSigner "ch" (.commit auction) ⟨⟨0, 0⟩, 0⟩ = .ok committed after ∧
      buildProposal openSigner "ch" (.commit { auction with collections := none }) ⟨⟨0, 0⟩, 0⟩ =
        .ok committed' after ∧
      committed.proposal.payload ≠ committed'.proposal.payload ∧ auction.collections ≠ none := by
  refine ⟨_, _, _, _, rfl, rfl, rfl, rfl, ?_, nofun⟩
  decide +kernel

end LedgerClient
