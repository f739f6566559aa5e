import LedgerClient.Error
import LedgerClient.Message.Configuration
/-!
# Configuration differences

A difference holds the parts of the old configuration that change and what becomes of them.  The
name of the consortium is always in it.
-/

namespace LedgerClient

/-- Puts the consortiums that are new or different into the write set, and their old definitions
into the read set. -/
def changedConsortiums (before after : Dict ConsortiumGroup) :
    Dict ConsortiumGroup × Dict ConsortiumGroup :=
  after.entries.foldl (fun (read, write) (name, consortium) =>
      if before.get? name = some consortium then (read, write)
      else
        (match before.get? name with
          | some old => read.insert name old
          | none => read,
        write.insert name consortium))
    (.empty, .empty)

/-- `a` where `a` and `b` differ, and `same` otherwise. -/
def unlessEqual {α : Type} [DecidableEq α] (a b same : α) : α := if a = b then same else a

/-- The part of `group` that differs from `other`, with the given consortiums. -/
def ChannelGroup.differing (group other : ChannelGroup) (consortiums : Dict ConsortiumGroup) :
    ChannelGroup where
  consortium := group.consortium
  application := unlessEqual group.application other.application none
  orderer := unlessEqual group.orderer other.orderer none
  consortiums := consortiums
  capabilities := unlessEqual group.capabilities other.capabilities []
  policies := unlessEqual group.policies other.policies .empty

/-- A way to compute the difference of two configurations of a channel. -/
abbrev DeltaComputer := String → Config → Config → Except ClientError ConfigUpdate

def computeDelta : DeltaComputer := fun channelId original updated =>
  let before := original.channelGroup
  let after := updated.channelGroup
  if before = after then
    .error (.configDelta "no differences detected between original and updated config")
  else
    let (read, write) := changedConsortiums before.consortiums after.consortiums
    .ok {
      channelId := channelId
      readSequence := original.sequence
      readSet := before.differing after read
      writeSet := after.differing before write }

end LedgerClient
