import LedgerClient.Error
import LedgerClient.Message.Configuration
/-!
# Membership changes

A change adds an organization to a group or takes one out: the application group of a channel, or
a consortium of the system channel.
-/

namespace LedgerClient

inductive ConfigChange where
  | channelAdd (organization : Organization)
  | channelRemove (name : String)
  | consortiumAdd (consortium : String) (organization : Organization)
  | consortiumRemove (consortium name : String)
  deriving DecidableEq

def addMember (members : Dict Organization) (organization : Organization) :
    Except ClientError (Dict Organization) :=
  if members.contains organization.name then .error (.organizationExists organization.name)
  else .ok (members.insert organization.name organization)

def removeMember (members : Dict Organization) (name : String) :
    Except ClientError (Dict Organization) :=
  if members.contains name then .ok (members.erase name) else .error (.organizationNotFound name)

namespace ChannelGroup

/-- Changes the members of the application group. -/
def updateApplication (g : ChannelGroup)
    (f : Dict Organization → Except ClientError (Dict Organization)) :
    Except ClientError ChannelGroup :=
  match g.application with
  | none => .error (.configDelta "channel has no application group")
  | some application => do
    let members ← f application.organizations
    return { g with application := some { application with organizations := members } }

/-- Changes the members of a consortium. -/
def updateConsortium (g : ChannelGroup) (consortium : String)
    (f : Dict Organization → Except ClientError (Dict Organization)) :
    Except ClientError ChannelGroup :=
  match g.consortiums.get? consortium with
  | none => .error (.consortiumNotFound consortium)
  | some group => do
    let members ← f group.organizations
    return { g with consortiums := g.consortiums.insert consortium ⟨members⟩ }

end ChannelGroup

/-- What a change makes of the members of its group. -/
def ConfigChange.applyTo (group : ChannelGroup) : ConfigChange → Except ClientError ChannelGroup
  | channelAdd organization => group.updateApplication (addMember · organization)
  | channelRemove name => group.updateApplication (removeMember · name)
  | consortiumAdd consortium organization =>
    group.updateConsortium consortium (addMember · organization)
  | consortiumRemove consortium name => group.updateConsortium consortium (removeMember · name)

def ConfigChange.apply (change : ConfigChange) (config : Config) : Except ClientError Config := do
  return { config with channelGroup := ← change.applyTo config.channelGroup }

end LedgerClient
