import LedgerClient.Message.Chaincode
/-!
# Ordering

Requests for ranges of blocks, acknowledgments, and the frames in which all messages travel.
-/

namespace LedgerClient

inductive SeekPosition where
  | newest
  | oldest
  | specified (number : UInt64)
  deriving DecidableEq

instance : Message SeekPosition where
  typeName := "fabric_protos::orderer::SeekPosition"
  schema := .choice <| .bare "Newest" <| .bare "Oldest" <| .holding "Specified" (schema UInt64) .nil
  pack
    | .newest => .inl ()
    | .oldest => .inr (.inl ())
    | .specified n => .inr (.inr (.inl (pack n)))
  unpack
    | .inl _ => .newest
    | .inr (.inl _) => .oldest
    | .inr (.inr (.inl n)) => .specified (unpack n)
  unpack_pack a := by cases a <;> rfl
  pack_unpack c := by
    rcases c with c | c | c | c
    · rfl
    · rfl
    · rfl
    · exact c.elim

inductive SeekBehavior where
  | blockUntilReady | failIfNotReady
  deriving DecidableEq

instance : Enumeration SeekBehavior where
  names := ["BlockUntilReady", "FailIfNotReady"]
  toFin a := ⟨a.ctorIdx, by cases a <;> decide⟩
  ofFin := ([.blockUntilReady, .failIfNotReady] : List SeekBehavior).get

instance : Message SeekBehavior where
  typeName := "fabric_protos::orderer::SeekBehavior"

inductive SeekErrorResponse where
  | strict | bestEffort
  deriving DecidableEq

instance : Enumeration SeekErrorResponse where
  names := ["Strict", "BestEffort"]
  toFin a := ⟨a.ctorIdx, by cases a <;> decide⟩
  ofFin := ([.strict, .bestEffort] : List SeekErrorResponse).get

instance : Message SeekErrorResponse where
  typeName := "fabric_protos::orderer::SeekErrorResponse"

/-- A range of blocks. -/
structure SeekInfo where
  start : SeekPosition
  stop : SeekPosition
  behavior : SeekBehavior
  errorResponse : SeekErrorResponse
  deriving DecidableEq

instance : Message SeekInfo where
  typeName := "fabric_protos::orderer::SeekInfo"
  schema := .record <| .field "start" SeekPosition <| .field "stop" SeekPosition <|
    .field "behavior" SeekBehavior <| .field "error_response" SeekErrorResponse .nil
  pack x := (pack x.start, pack x.stop, pack x.behavior, pack x.errorResponse, ())
  unpack c := ⟨unpack c.1, unpack c.2.1, unpack c.2.2.1, unpack c.2.2.2.1⟩
  unpack_pack x := by simp
  pack_unpack c := by simp

namespace SeekInfo

/-- One block. -/
def single (position : SeekPosition) (bestEffort : Bool) : SeekInfo where
  start := position
  stop := position
  behavior := .blockUntilReady
  errorResponse := if bestEffort then .bestEffort else .strict

/-- The newest block and all that follow. -/
def newestOnward : SeekInfo where
  start := .newest
  stop := .specified 0xffffffffffffffff
  behavior := .blockUntilReady
  errorResponse := .strict

end SeekInfo

/-- The acknowledgment of an envelope. -/
structure BroadcastResponse where
  status : Status
  info : String
  deriving DecidableEq

instance : Message BroadcastResponse where
  typeName := "fabric_protos::orderer::BroadcastResponse"
  schema := .record <| .field "status" Status <| .field "info" String .nil
  pack x := (pack x.status, pack x.info, ())
  unpack c := ⟨unpack c.1, unpack c.2.1⟩
  unpack_pack x := by simp
  pack_unpack c := by simp

/-! ## Frames -/

/-- What a session is opened for. -/
inductive Service where
  | endorser | broadcast | deliver | deliverFiltered
  deriving DecidableEq

instance : Enumeration Service where
  names := ["Endorser", "Broadcast", "Deliver", "DeliverFiltered"]
  toFin a := ⟨a.ctorIdx, by cases a <;> decide⟩
  ofFin := ([.endorser, .broadcast, .deliver, .deliverFiltered] : List Service).get

/-- A message between client and node. -/
inductive Frame where
  | opening (service : Service)
  | proposal (proposal : SignedProposal)
  | proposalResponse (response : ProposalResponse)
  | envelope (envelope : Envelope)
  | broadcast (response : BroadcastResponse)
  | deliver (response : DeliverResponse)
  /-- The node failed, and the session ends. -/
  | failure (reason : String)
  deriving DecidableEq

instance : Message Frame where
  typeName := "fabric_sdk::transport::Frame"
  schema := .choice <| .holding "Open" (schema Service) <|
    .holding "Proposal" (schema SignedProposal) <|
    .holding "ProposalResponse" (schema ProposalResponse) <|
    .holding "Envelope" (schema Envelope) <| .holding "Broadcast" (schema BroadcastResponse) <|
    .holding "Deliver" (schema DeliverResponse) <| .holding "Error" (schema String) .nil
  pack
    | .opening a => .inl (pack a)
    | .proposal a => .inr (.inl (pack a))
    | .proposalResponse a => .inr (.inr (.inl (pack a)))
    | .envelope a => .inr (.inr (.inr (.inl (pack a))))
    | .broadcast a => .inr (.inr (.inr (.inr (.inl (pack a)))))
    | .deliver a => .inr (.inr (.inr (.inr (.inr (.inl (pack a))))))
    | .failure a => .inr (.inr (.inr (.inr (.inr (.inr (.inl (pack a)))))))
  unpack
    | .inl a => .opening (unpack a)
    | .inr (.inl a) => .proposal (unpack a)
    | .inr (.inr (.inl a)) => .proposalResponse (unpack a)
    | .inr (.inr (.inr (.inl a))) => .envelope (unpack a)
    | .inr (.inr (.inr (.inr (.inl a)))) => .broadcast (unpack a)
    | .inr (.inr (.inr (.inr (.inr (.inl a))))) => .deliver (unpack a)
    | .inr (.inr (.inr (.inr (.inr (.inr (.inl a)))))) => .failure (unpack a)
  unpack_pack a := by cases a <;> simp
  pack_unpack c := by
    rcases c with c | c | c | c | c | c | c | c
    · simp
    · simp
    · simp
    · simp
    · simp
    · simp
    · simp
    · exact c.elim

/-- The kind of a frame, as it is called in messages. -/
def Frame.kind : Frame → String
  | .opening _ => "open"
  | .proposal _ => "proposal"
  | .proposalResponse _ => "proposal response"
  | .envelope _ => "envelope"
  | .broadcast _ => "broadcast response"
  | .deliver _ => "deliver response"
  | .failure _ => "error"

end LedgerClient
