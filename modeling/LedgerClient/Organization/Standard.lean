import LedgerClient.Message.Configuration
/-!
# Organizations with standard policies

The policies that organizations and groups start with, and an organization made step by step.
-/

namespace LedgerClient

/-- The policy that accepts any one of the roles of an organization. -/
def anyRole (mspId : String) (roles : List String) : Policy where
  kind := .signature
  rule :=
    "OR(" ++ ", ".intercalate (roles.map fun role => "'" ++ mspId ++ "." ++ role ++ "'") ++ ")"

def implicitMeta (rule : String) : Policy where
  kind := .implicitMeta
  rule := rule

def peerOrganizationPolicies (mspId : String) : Dict Policy :=
  .ofList [
    ("Readers", anyRole mspId ["admin", "peer", "client"]),
    ("Writers", anyRole mspId ["admin", "client"]),
    ("Admins", anyRole mspId ["admin"]),
    ("Endorsement", anyRole mspId ["peer"])]

def ordererOrganizationPolicies (mspId : String) : Dict Policy :=
  .ofList [
    ("Readers", anyRole mspId ["member"]),
    ("Writers", anyRole mspId ["member"]),
    ("Admins", anyRole mspId ["admin"])]

def applicationChannelPolicies : Dict Policy :=
  .ofList [
    ("Readers", implicitMeta "ANY Readers"),
    ("Writers", implicitMeta "ANY Writers"),
    ("Admins", implicitMeta "MAJORITY Admins"),
    ("Endorsement", implicitMeta "MAJORITY Endorsement"),
    ("LifecycleEndorsement", implicitMeta "MAJORITY Endorsement")]

def ordererGroupPolicies : Dict Policy :=
  .ofList [
    ("Readers", implicitMeta "ANY Readers"),
    ("Writers", implicitMeta "ANY Writers"),
    ("Admins", implicitMeta "MAJORITY Admins"),
    ("BlockValidation", implicitMeta "ANY Writers")]

namespace Organization

/-- An organization without certificates and nodes. -/
def standard (kind : OrganizationKind) (name mspId : String) : Organization where
  name := name
  mspId := mspId
  kind := kind
  rootCerts := []
  tlsRootCerts := []
  adminCerts := []
  anchorPeers := []
  ordererEndpoints := []
  policies := match kind with
    | .peer => peerOrganizationPolicies mspId
    | .orderer => ordererOrganizationPolicies mspId

def withRootCert (o : Organization) (der : Bytes) : Organization :=
  { o with rootCerts := o.rootCerts ++ [der] }

def withTlsRootCert (o : Organization) (der : Bytes) : Organization :=
  { o with tlsRootCerts := o.tlsRootCerts ++ [der] }

def withAdminCert (o : Organization) (der : Bytes) : Organization :=
  { o with adminCerts := o.adminCerts ++ [der] }

/-- Only organizations of peers have anchor peers. -/
def withAnchorPeer (o : Organization) (host : String) (port : UInt16) : Organization :=
  match o.kind with
  | .peer => { o with anchorPeers := o.anchorPeers ++ [⟨host, port⟩] }
  | .orderer => o

/-- Only organizations of orderers have endpoints. -/
def withOrdererEndpoint (o : Organization) (host : String) (port : UInt16) : Organization :=
  match o.kind with
  | .peer => o
  | .orderer => { o with ordererEndpoints := o.ordererEndpoints ++ [s!"{host}:{port.toNat}"] }

end Organization

end LedgerClient
