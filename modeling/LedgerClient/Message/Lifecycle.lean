import LedgerClient.Message.Chaincode
/-!
# Chaincode lifecycle

Arguments and results of the calls that install, approve and commit chaincode definitions.
-/

namespace LedgerClient

structure InstallChaincodeArgs where
  chaincodeInstallPackage : Bytes
  deriving DecidableEq

instance : Message InstallChaincodeArgs where
  typeName := "fabric_protos::lifecycle::InstallChaincodeArgs"
  schema := .record <| .field "chaincode_install_package" Bytes .nil
  pack x := (pack x.chaincodeInstallPackage, ())
  unpack c := ⟨unpack c.1⟩
  unpack_pack x := by simp
  pack_unpack c := by simp

structure InstallChaincodeResult where
  packageId : String
  label : String
  deriving DecidableEq

instance : Message InstallChaincodeResult where
  typeName := "fabric_protos::lifecycle::InstallChaincodeResult"
  schema := .record <| .field "package_id" String <| .field "label" String .nil
  pack x := (pack x.packageId, pack x.label, ())
  unpack c := ⟨unpack c.1, unpack c.2.1⟩
  unpack_pack x := by simp
  pack_unpack c := by simp

/-- Where an organization that approves gets the chaincode from. -/
inductive ChaincodeSource where
  | localPackage (packageId : String)
  | unavailable
  deriving DecidableEq

instance : Message ChaincodeSource where
  typeName := "fabric_protos::lifecycle::ChaincodeSource"
  schema := .choice <|
    .holding "LocalPackage" (.record <| .field "package_id" String .nil) <| .bare "Unavailable" .nil
  pack
    | .localPackage id => .inl (pack id, ())
    | .unavailable => .inr (.inl ())
  unpack
    | .inl c => .localPackage (unpack c.1)
    | .inr (.inl _) => .unavailable
  unpack_pack a := by cases a <;> simp
  pack_unpack c := by
    rcases c with c | c | c
    · simp
    · rfl
    · exact c.elim

/-- The endorsement policy of a chaincode. -/
inductive ApplicationPolicy where
  | signaturePolicy (expression : String)
  | channelConfigPolicyReference (reference : String)
  deriving DecidableEq

instance : Message ApplicationPolicy where
  typeName := "fabric_protos::lifecycle::ApplicationPolicy"
  schema := .choice <| .holding "SignaturePolicy" (schema String) <|
    .holding "ChannelConfigPolicyReference" (schema String) .nil
  pack
    | .signaturePolicy s => .inl (pack s)
    | .channelConfigPolicyReference s => .inr (.inl (pack s))
  unpack
    | .inl s => .signaturePolicy (unpack s)
    | .inr (.inl s) => .channelConfigPolicyReference (unpack s)
  unpack_pack a := by cases a <;> simp
  pack_unpack c := by
    rcases c with c | c | c
    · simp
    · simp
    · exact c.elim

/-- A collection of private data. -/
structure CollectionConfig where
  name : String
  policy : String
  requiredPeerCount : Int32
  maxPeerCount : Int32
  blockToLive : UInt64
  memberOnlyRead : Bool
  memberOnlyWrite : Bool
  endorsementPolicy : Option ApplicationPolicy
  deriving DecidableEq

instance : Message CollectionConfig where
  typeName := "fabric_protos::lifecycle::CollectionConfig"
  schema := .record <| .field "name" String <| .field "policy" String <|
    .field "requiredPeerCount" Int32 <| .field "maxPeerCount" Int32 <|
    .fieldOr "blockToLive" .zero UInt64 <| .fieldOr "memberOnlyRead" .zero Bool <|
    .fieldOr "memberOnlyWrite" .zero Bool <|
    .fieldOr "endorsementPolicy" .zero (Option ApplicationPolicy) .nil
  pack x := (pack x.name, pack x.policy, pack x.requiredPeerCount, pack x.maxPeerCount,
    pack x.blockToLive, pack x.memberOnlyRead, pack x.memberOnlyWrite, pack x.endorsementPolicy, ())
  unpack c := ⟨unpack c.1, unpack c.2.1, unpack c.2.2.1, unpack c.2.2.2.1, unpack c.2.2.2.2.1,
    unpack c.2.2.2.2.2.1, unpack c.2.2.2.2.2.2.1, unpack c.2.2.2.2.2.2.2.1⟩
  unpack_pack x := by simp
  pack_unpack c := by simp

structure CollectionConfigPackage where
  config : List CollectionConfig
  deriving DecidableEq

instance : Message CollectionConfigPackage where
  typeName := "fabric_protos::lifecycle::CollectionConfigPackage"
  schema := .record <| .field "config" (List CollectionConfig) .nil
  pack x := (pack x.config, ())
  unpack c := ⟨unpack c.1⟩
  unpack_pack x := by simp
  pack_unpack c := by simp

structure ApproveChaincodeDefinitionForMyOrgArgs where
  sequence : Int64
  name : String
  version : String
  endorsementPlugin : String
  validationPlugin : String
  validationParameter : Bytes
  collections : Option CollectionConfigPackage
  initRequired : Bool
  source : ChaincodeSource
  deriving DecidableEq

instance : Message ApproveChaincodeDefinitionForMyOrgArgs where
  typeName := "fabric_protos::lifecycle::ApproveChaincodeDefinitionForMyOrgArgs"
  schema := .record <| .field "sequence" Int64 <| .field "name" String <| .field "version" String <|
    .field "endorsement_plugin" String <| .field "validation_plugin" String <|
    .field "validation_parameter" Bytes <| .field "collections" (Option CollectionConfigPackage) <|
    .field "init_required" Bool <| .field "source" ChaincodeSource .nil
  pack x := (pack x.sequence, pack x.name, pack x.version, pack x.endorsementPlugin,
    pack x.validationPlugin, pack x.validationParameter, pack x.collections, pack x.initRequired,
    pack x.source, ())
  unpack c := ⟨unpack c.1, unpack c.2.1, unpack c.2.2.1, unpack c.2.2.2.1, unpack c.2.2.2.2.1,
    unpack c.2.2.2.2.2.1, unpack c.2.2.2.2.2.2.1, unpack c.2.2.2.2.2.2.2.1,
    unpack c.2.2.2.2.2.2.2.2.1⟩
  unpack_pack x := by simp
  pack_unpack c := by simp

structure CommitChaincodeDefinitionArgs where
  sequence : Int64
  name : String
  version : String
  endorsementPlugin : String
  validationPlugin : String
  validationParameter : Bytes
  collections : Option CollectionConfigPackage
  initRequired : Bool
  deriving DecidableEq

instance : Message CommitChaincodeDefinitionArgs where
  typeName := "fabric_protos::lifecycle::CommitChaincodeDefinitionArgs"
  schema := .record <| .field "sequence" Int64 <| .field "name" String <| .field "version" String <|
    .field "endorsement_plugin" String <| .field "validation_plugin" String <|
    .field "validation_parameter" Bytes <| .field "collections" (Option CollectionConfigPackage) <|
    .field "init_required" Bool .nil
  pack x := (pack x.sequence, pack x.name, pack x.version, pack x.endorsementPlugin,
    pack x.validationPlugin, pack x.validationParameter, pack x.collections, pack x.initRequired,
    ())
  unpack c := ⟨unpack c.1, unpack c.2.1, unpack c.2.2.1, unpack c.2.2.2.1, unpack c.2.2.2.2.1,
    unpack c.2.2.2.2.2.1, unpack c.2.2.2.2.2.2.1, unpack c.2.2.2.2.2.2.2.1⟩
  unpack_pack x := by simp
  pack_unpack c := by simp

structure QueryInstalledChaincodesArgs where
  deriving DecidableEq

instance : Message QueryInstalledChaincodesArgs where
  typeName := "fabric_protos::lifecycle::QueryInstalledChaincodesArgs"
  schema := .record .nil
  pack _ := ()
  unpack _ := {}

structure InstalledChaincode where
  packageId : String
  label : String
  deriving DecidableEq

instance : Message InstalledChaincode where
  typeName := "fabric_protos::lifecycle::InstalledChaincode"
  schema := .record <| .field "package_id" String <| .field "label" String .nil
  pack x := (pack x.packageId, pack x.label, ())
  unpack c := ⟨unpack c.1, unpack c.2.1⟩
  unpack_pack x := by simp
  pack_unpack c := by simp

structure QueryInstalledChaincodesResult where
  installedChaincodes : List InstalledChaincode
  deriving DecidableEq

instance : Message QueryInstalledChaincodesResult where
  typeName := "fabric_protos::lifecycle::QueryInstalledChaincodesResult"
  schema := .record <| .field "installed_chaincodes" (List InstalledChaincode) .nil
  pack x := (pack x.installedChaincodes, ())
  unpack c := ⟨unpack c.1⟩
  unpack_pack x := by simp
  pack_unpack c := by simp

structure QueryApprovedChaincodeDefinitionArgs where
  name : String
  /-- Zero asks for the latest one. -/
  sequence : Int64
  deriving DecidableEq

instance : Message QueryApprovedChaincodeDefinitionArgs where
  typeName := "fabric_protos::lifecycle::QueryApprovedChaincodeDefinitionArgs"
  schema := .record <| .field "name" String <| .field "sequence" Int64 .nil
  pack x := (pack x.name, pack x.sequence, ())
  unpack c := ⟨unpack c.1, unpack c.2.1⟩
  unpack_pack x := by simp
  pack_unpack c := by simp

structure QueryApprovedChaincodeDefinitionResult where
  sequence : Int64
  version : String
  endorsementPlugin : String
  validationPlugin : String
  validationParameter : Bytes
  collections : Option CollectionConfigPackage
  initRequired : Bool
  source : ChaincodeSource
  deriving DecidableEq

instance : Message QueryApprovedChaincodeDefinitionResult where
  typeName := "fabric_protos::lifecycle::QueryApprovedChaincodeDefinitionResult"
  schema := .record <| .field "sequence" Int64 <| .field "version" String <|
    .field "endorsement_plugin" String <| .field "validation_plugin" String <|
    .field "validation_parameter" Bytes <| .field "collections" (Option CollectionConfigPackage) <|
    .field "init_required" Bool <| .field "source" ChaincodeSource .nil
  pack x := (pack x.sequence, pack x.version, pack x.endorsementPlugin, pack x.validationPlugin,
    pack x.validationParameter, pack x.collections, pack x.initRequired, pack x.source, ())
  unpack c := ⟨unpack c.1, unpack c.2.1, unpack c.2.2.1, unpack c.2.2.2.1, unpack c.2.2.2.2.1,
    unpack c.2.2.2.2.2.1, unpack c.2.2.2.2.2.2.1, unpack c.2.2.2.2.2.2.2.1⟩
  unpack_pack x := by simp
  pack_unpack c := by simp

structure QueryChaincodeDefinitionArgs where
  name : String
  deriving DecidableEq

instance : Message QueryChaincodeDefinitionArgs where
  typeName := "fabric_protos::lifecycle::QueryChaincodeDefinitionArgs"
  schema := .record <| .field "name" String .nil
  pack x := (pack x.name, ())
  unpack c := ⟨unpack c.1⟩
  unpack_pack x := by simp
  pack_unpack c := by simp

structure QueryChaincodeDefinitionResult where
  sequence : Int64
  version : String
  endorsementPlugin : String
  validationPlugin : String
  validationParameter : Bytes
  collections : Option CollectionConfigPackage
  initRequired : Bool
  approvals : Dict Bool
  deriving DecidableEq

instance : Message QueryChaincodeDefinitionResult where
  typeName := "fabric_protos::lifecycle::QueryChaincodeDefinitionResult"
  schema := .record <| .field "sequence" Int64 <| .field "version" String <|
    .field "endorsement_plugin" String <| .field "validation_plugin" String <|
    .field "validation_parameter" Bytes <| .field "collections" (Option CollectionConfigPackage) <|
    .field "init_required" Bool <| .field "approvals" (Dict Bool) .nil
  pack x := (pack x.sequence, pack x.version, pack x.endorsementPlugin, pack x.validationPlugin,
    pack x.validationParameter, pack x.collections, pack x.initRequired, pack x.approvals, ())
  unpack c := ⟨unpack c.1, unpack c.2.1, unpack c.2.2.1, unpack c.2.2.2.1, unpack c.2.2.2.2.1,
    unpack c.2.2.2.2.2.1, unpack c.2.2.2.2.2.2.1, unpack c.2.2.2.2.2.2.2.1⟩
  unpack_pack x := by simp
  pack_unpack c := by simp

structure QueryChaincodeDefinitionsArgs where
  deriving DecidableEq

instance : Message QueryChaincodeDefinitionsArgs where
  typeName := "fabric_protos::lifecycle::QueryChaincodeDefinitionsArgs"
  schema := .record .nil
  pack _ := ()
  unpack _ := {}

/-- A chaincode definition as a channel lists it. -/
structure CommittedDefinition where
  name : String
  sequence : Int64
  version : String
  endorsementPlugin : String
  validationPlugin : String
  initRequired : Bool
  deriving DecidableEq

instance : Message CommittedDefinition where
  typeName := "fabric_protos::lifecycle::ChaincodeDefinition"
  schema := .record <| .field "name" String <| .field "sequence" Int64 <| .field "version" String <|
    .field "endorsement_plugin" String <| .field "validation_plugin" String <|
    .field "init_required" Bool .nil
  pack x := (pack x.name, pack x.sequence, pack x.version, pack x.endorsementPlugin,
    pack x.validationPlugin, pack x.initRequired, ())
  unpack c := ⟨unpack c.1, unpack c.2.1, unpack c.2.2.1, unpack c.2.2.2.1, unpack c.2.2.2.2.1,
    unpack c.2.2.2.2.2.1⟩
  unpack_pack x := by simp
  pack_unpack c := by simp

structure QueryChaincodeDefinitionsResult where
  chaincodeDefinitions : List CommittedDefinition
  deriving DecidableEq

instance : Message QueryChaincodeDefinitionsResult where
  typeName := "fabric_protos::lifecycle::QueryChaincodeDefinitionsResult"
  schema := .record <| .field "chaincode_definitions" (List CommittedDefinition) .nil
  pack x := (pack x.chaincodeDefinitions, ())
  unpack c := ⟨unpack c.1⟩
  unpack_pack x := by simp
  pack_unpack c := by simp

structure CheckCommitReadinessArgs where
  sequence : Int64
  name : String
  version : String
  endorsementPlugin : String
  validationPlugin : String
  validationParameter : Bytes
  initRequired : Bool
  deriving DecidableEq

instance : Message CheckCommitReadinessArgs where
  typeName := "fabric_protos::lifecycle::CheckCommitReadinessArgs"
  schema := .record <| .field "sequence" Int64 <| .field "name" String <| .field "version" String <|
    .field "endorsement_plugin" String <| .field "validation_plugin" String <|
    .field "validation_parameter" Bytes <| .field "init_required" Bool .nil
  pack x := (pack x.sequence, pack x.name, pack x.version, pack x.endorsementPlugin,
    pack x.validationPlugin, pack x.validationParameter, pack x.initRequired, ())
  unpack c := ⟨unpack c.1, unpack c.2.1, unpack c.2.2.1, unpack c.2.2.2.1, unpack c.2.2.2.2.1,
    unpack c.2.2.2.2.2.1, unpack c.2.2.2.2.2.2.1⟩
  unpack_pack x := by simp
  pack_unpack c := by simp

structure CheckCommitReadinessResult where
  approvals : Dict Bool
  deriving DecidableEq

instance : Message CheckCommitReadinessResult where
  typeName := "fabric_protos::lifecycle::CheckCommitReadinessResult"
  schema := .record <| .field "approvals" (Dict Bool) .nil
  pack x := (pack x.approvals, ())
  unpack c := ⟨unpack c.1⟩
  unpack_pack x := by simp
  pack_unpack c := by simp

end LedgerClient
