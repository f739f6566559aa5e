import LedgerClient.Identity.Signer
import LedgerClient.Schema.Json
/-!
# Settings

The nodes of the network and the deadlines, as a JSON file gives them; what is given on a command
line goes over what the file says.
-/

namespace LedgerClient

structure NodeSettings where
  address : String
  orgId : Option String := none
  deriving DecidableEq

instance : Layout NodeSettings where
  schema := .record <| .field "address" String <| .fieldOr "org_id" .zero (Option String) .nil
  pack x := (pack x.address, pack x.orgId, ())
  unpack c := ⟨unpack c.1, unpack c.2.1⟩
  unpack_pack x := by simp
  pack_unpack c := by simp

/-- Deadlines in milliseconds. -/
structure Timeouts where
  connectMs : UInt64 := 5000
  endorseMs : UInt64 := 30000
  broadcastMs : UInt64 := 10000
  /-- Zero means not to wait for commit. -/
  commitMs : UInt64 := 30000
  deriving DecidableEq

instance : Layout Timeouts where
  schema := .record <| .fieldOr "connect_ms" (.number 5000) UInt64 <|
    .fieldOr "endorse_ms" (.number 30000) UInt64 <|
    .fieldOr "broadcast_ms" (.number 10000) UInt64 <|
    .fieldOr "commit_ms" (.number 30000) UInt64 .nil
  pack x := (pack x.connectMs, pack x.endorseMs, pack x.broadcastMs, pack x.commitMs, ())
  unpack c := ⟨unpack c.1, unpack c.2.1, unpack c.2.2.1, unpack c.2.2.2.1⟩
  unpack_pack x := by simp
  pack_unpack c := by simp

/-- How long to wait for commit, if at all. -/
def Timeouts.commit? (t : Timeouts) : Option Nat :=
  if t.commitMs = 0 then none else some t.commitMs.toNat

/-- The deadlines on a running clock: one of zero milliseconds passes with the next tick, so that
what fails at once has failed before it. -/
def Timeouts.onClock (t : Timeouts) : Timeouts := { t with endorseMs := max t.endorseMs 1 }

structure Settings where
  orderer : NodeSettings
  /-- The peers that endorse and commit. -/
  peers : List NodeSettings := []
  /-- The address of the peer that is queried; the first peer where it is not given. -/
  committer : Option String := none
  timeouts : Timeouts := {}
  deriving DecidableEq

instance : Layout Settings where
  schema := .record <| .field "orderer" NodeSettings <|
    .fieldOr "peers" .zero (List NodeSettings) <|
    .fieldOr "committer" .zero (Option String) <| .fieldOr "timeouts" .zero Timeouts .nil
  pack x := (pack x.orderer, pack x.peers, pack x.committer, pack x.timeouts, ())
  unpack c := ⟨unpack c.1, unpack c.2.1, unpack c.2.2.1, unpack c.2.2.2.1⟩
  unpack_pack x := by simp
  pack_unpack c := by simp

namespace Settings

/-- The settings without a file. -/
def standard : Settings where
  orderer := { address := "127.0.0.1:7050" }
  peers := [{ address := "127.0.0.1:7051" }]

def committerAddress? (s : Settings) : Option String :=
  s.committer <|> s.peers.head?.map (·.address)

def ofFile (content : Except FileFault Bytes) : Except ClientError Settings := do
  let text ← (textOfFile content).mapError .file
  (fromJsonText Settings text).mapError .unreadable

end Settings

/-- Settings given on the command line. -/
structure Overrides where
  orderer : Option String := none
  peers : List String := []
  committer : Option String := none
  commitMs : Option UInt64 := none

/-- Puts what is given over the settings; no peers at all leave the peers as they are. -/
def Overrides.apply (o : Overrides) (s : Settings) : Settings where
  orderer := match o.orderer with
    | some address => { address := address }
    | none => s.orderer
  peers := if o.peers.isEmpty then s.peers else o.peers.map fun address => { address := address }
  committer := o.committer <|> s.committer
  timeouts := match o.commitMs with
    | some ms => { s.timeouts with commitMs := ms }
    | none => s.timeouts

/-- The settings of a file, or the standard ones without a file, with what is given over them. -/
def resolveSettings (file : Option (Except FileFault Bytes)) (overrides : Overrides) :
    Except ClientError Settings := do
  let settings ← match file with
    | some content => Settings.ofFile content
    | none => pure .standard
  return overrides.apply settings

end LedgerClient
