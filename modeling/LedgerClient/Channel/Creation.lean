import LedgerClient.Error
import LedgerClient.Organization.Standard
/-!
# Channel creation

A new application channel is asked for by an update from a group that only names its members to
the same group with capabilities and policies.  Members are known by name: their certificates and
policies stay in the consortium.
-/

namespace LedgerClient

/-- An organization as a channel refers to it. -/
def Organization.reference (o : Organization) : Organization :=
  { o with policies := .empty, rootCerts := [], tlsRootCerts := [], adminCerts := [] }

def membersOf (organizations : List Organization) : Dict Organization :=
  .ofList (organizations.map fun o => (o.name, o.reference))

/-- The group of an application channel before anything else is set. -/
def creationGroup (consortium : String) (application : ApplicationGroup) : ChannelGroup :=
  { ChannelGroup.empty with consortium := some consortium, application := some application }

def applicationCapability : String := "V2_0"

def creationUpdate (channelId consortium : String) (organizations : List Organization) :
    Except ClientError ConfigUpdate :=
  if organizations.isEmpty then
    .error (.invalidArgument "a channel needs at least one organization")
  else
    let members := membersOf organizations
    .ok {
      channelId := channelId
      readSequence := 0
      readSet := creationGroup consortium ⟨members, [], .empty⟩
      writeSet := creationGroup consortium
        ⟨members, [applicationCapability], applicationChannelPolicies⟩ }

end LedgerClient
