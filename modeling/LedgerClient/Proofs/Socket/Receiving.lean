import LedgerClient.Network.Socket
import LedgerClient.Proofs.Deadlines
/-!
# Receiving on sockets

A receive passes over the messages up to the next one that counts, and this message decides about
its result.  `FrameKind` is what a session is for; the three kinds share everything here.

* `FrameKind.Tells`: what a message says to a session of a kind.  `tells_iff`: this is what the
  session makes of it.
* `FrameKind.Returns`: when a receive returns, with what, and what it leaves of the messages.
  `returns_or_idle`: it returns unless the node says nothing more that counts.
* `Stream.Follows`: a stream has still to receive these messages.  `brings_of_returns`,
  `receive_of_returns`: one receive; the stream then follows what is left.
* `receiveTimes_iff`: all receives of a session, one after the other.
-/

namespace LedgerClient

variable {α : Type} {address : String}

/-! ## Messages -/

/-- A receive passes over the message. -/
def SocketMessage.PassedOver : SocketMessage → Prop
  | .text _ | .ping _ | .pong _ => True
  | .binary _ | .close | .failure _ => False

/-- The frames that a session is for: what they are called, and what they carry. -/
structure FrameKind (α : Type) where
  name : String
  frame : α → Frame

def proposalResponses : FrameKind ProposalResponse := ⟨"proposal response", .proposalResponse⟩

def broadcastResponses : FrameKind BroadcastResponse := ⟨"broadcast response", .broadcast⟩

def deliverResponses : FrameKind DeliverResponse := ⟨"deliver response", .deliver⟩

/-- What a message says to a session that expects frames of a kind. -/
inductive FrameKind.Tells (kind : FrameKind α) (address : String) :
    SocketMessage → Except ClientError α → Prop
  | expected {content : Bytes} {a : α} : fromWire Frame content = .ok (kind.frame a) →
      Tells kind address (.binary content) (.ok a)
  | failure {content : Bytes} {reason : String} :
      fromWire Frame content = .ok (.failure reason) →
      Tells kind address (.binary content) (.error (.transport address reason))
  | unexpected {content : Bytes} {frame : Frame} : fromWire Frame content = .ok frame →
      (∀ a, frame ≠ kind.frame a) → (∀ reason, frame ≠ .failure reason) →
      Tells kind address (.binary content)
        (.error (.transport address s!"expected {kind.name}, got {frame.kind}"))
  | undecodable {content : Bytes} {fault : DecodeFault} : fromWire Frame content = .error fault →
      Tells kind address (.binary content) (.error (.undecodable fault))
  | closed : Tells kind address .close (.error (.transport address "connection closed"))
  | broken {reason : String} :
      Tells kind address (.failure reason) (.error (.transport address reason))

/-- A session lets the frames of a kind through, and no other frame. -/
structure FrameKind.LetThrough (kind : FrameKind α) (address : String)
    (expect : Frame → Except ClientError α) : Prop where
  frame : ∀ a, expect (kind.frame a) = .ok a
  other : ∀ f, (∀ a, f ≠ kind.frame a) → expect f = .error (unexpectedFrame address kind.name f)
  notFailure : ∀ a reason, kind.frame a ≠ .failure reason

theorem proposalResponses_letThrough (address : String) :
    proposalResponses.LetThrough address (expectProposalResponse address) where
  frame _ := rfl
  other f hf := by
    cases f with
    | proposalResponse a => exact absurd rfl (hf a)
    | _ => rfl
  notFailure := nofun

theorem broadcastResponses_letThrough (address : String) :
    broadcastResponses.LetThrough address (expectBroadcast address) where
  frame _ := rfl
  other f hf := by
    cases f with
    | broadcast a => exact absurd rfl (hf a)
    | _ => rfl
  notFailure := nofun

theorem deliverResponses_letThrough (address : String) :
    deliverResponses.LetThrough address (expectDeliver address) where
  frame _ := rfl
  other f hf := by
    cases f with
    | deliver a => exact absurd rfl (hf a)
    | _ => rfl
  notFailure := nofun

section Messages

variable {kind : FrameKind α} {expect : Frame → Except ClientError α} {m : SocketMessage}
  {r : Except ClientError α}

theorem frameOf_eq_none_iff : frameOf address m = none ↔ m.PassedOver := by
  cases m with
  | text content => exact iff_of_true rfl trivial
  | ping content => exact iff_of_true rfl trivial
  | pong content => exact iff_of_true rfl trivial
  | binary content => exact ⟨nofun, nofun⟩
  | close => exact ⟨nofun, nofun⟩
  | failure reason => exact ⟨nofun, nofun⟩

/-- A frame that is no failure goes on to what the session expects. -/
theorem frameOf_binary_of_ok {content : Bytes} {frame : Frame}
    (h : fromWire Frame content = .ok frame) (hf : ∀ reason, frame ≠ .failure reason) :
    frameOf address (.binary content) = some (.ok frame) := by
  rw [frameOf, h]
  cases frame with
  | failure reason => exact absurd rfl (hf reason)
  | _ => rfl

/-- What a message says is what the session makes of it. -/
theorem tells_iff (h : kind.LetThrough address expect) :
    kind.Tells address m r ↔ ∃ result, frameOf address m = some result ∧ result >>= expect = r := by
  constructor
  · intro htells
    cases htells with
    | expected hcontent =>
      exact ⟨_, frameOf_binary_of_ok hcontent (h.notFailure _), h.frame _⟩
    | failure hcontent => exact ⟨_, by rw [frameOf, hcontent], rfl⟩
    | unexpected hcontent hother hfailure =>
      exact ⟨_, frameOf_binary_of_ok hcontent hfailure, h.other _ hother⟩
    | undecodable hcontent => exact ⟨_, by rw [frameOf, hcontent], rfl⟩
    | closed => exact ⟨_, rfl, rfl⟩
    | broken => exact ⟨_, rfl, rfl⟩
  · rintro ⟨result, hframe, rfl⟩
    cases m with
    | text content => cases hframe
    | ping content => cases hframe
    | pong content => cases hframe
    | close => cases hframe; exact .closed
    | failure reason => cases hframe; exact .broken
    | binary content =>
      cases hcontent : fromWire Frame content with
      | error fault =>
        rw [frameOf, hcontent] at hframe
        cases hframe
        exact .undecodable hcontent
      | ok frame =>
        by_cases hfailure : ∃ reason, frame = .failure reason
        · obtain ⟨reason, rfl⟩ := hfailure
          rw [frameOf, hcontent] at hframe
          cases hframe
          exact .failure hcontent
        · have hfailure' : ∀ reason, frame ≠ .failure reason := not_exists.1 hfailure
          rw [frameOf_binary_of_ok hcontent hfailure'] at hframe
          cases hframe
          by_cases hkind : ∃ a, frame = kind.frame a
          · obtain ⟨a, rfl⟩ := hkind
            change kind.Tells address _ (expect (kind.frame a))
            rw [h.frame]
            exact .expected hcontent
          · have hother : ∀ a, frame ≠ kind.frame a := not_exists.1 hkind
            change kind.Tells address _ (expect frame)
            rw [h.other frame hother]
            exact .unexpected hcontent hother hfailure'

end Messages

/-! ## Receives -/

/-- What a node has still to say on a connection, and whether the connection ends after it. -/
structure Feed where
  messages : List (Nat × SocketMessage)
  ended : Bool

def Connection.feed (c : Connection) : Feed := ⟨c.incoming, c.ended⟩

/-- The connection has ended. -/
def Feed.finished : Feed := ⟨[], true⟩

/-- Whether the connection ends at some time. -/
def Feed.ends (feed : Feed) : Bool := feed.ended || feed.messages.any fun m => m.2.isLast

/-- The node says nothing more that counts, and the connection stays open. -/
def Feed.Idle (feed : Feed) : Prop := feed.ended = false ∧ ∀ m ∈ feed.messages, m.2.PassedOver

/-- When a receive returns, with what result, and what is left of the messages then. -/
inductive FrameKind.Returns (kind : FrameKind α) (address : String) :
    Feed → Nat → Except ClientError α → Feed → Prop
  | passedOver {delay wait : Nat} {m : SocketMessage} {messages : List (Nat × SocketMessage)}
      {ended : Bool} {r : Except ClientError α} {rest : Feed} : m.PassedOver →
      Returns kind address ⟨messages, ended⟩ wait r rest →
      Returns kind address ⟨(delay, m) :: messages, ended⟩ (delay + wait) r rest
  | message {delay : Nat} {m : SocketMessage} {messages : List (Nat × SocketMessage)}
      {ended : Bool} {r : Except ClientError α} : kind.Tells address m r → m.isLast = false →
      Returns kind address ⟨(delay, m) :: messages, ended⟩ delay r ⟨messages, ended⟩
  | last {delay : Nat} {m : SocketMessage} {messages : List (Nat × SocketMessage)}
      {ended : Bool} {r : Except ClientError α} : kind.Tells address m r → m.isLast = true →
      Returns kind address ⟨(delay, m) :: messages, ended⟩ delay r .finished
  | ended : Returns kind address .finished 0 (.error (.transport address "connection closed")) .finished

section Receives

variable {kind : FrameKind α} {expect : Frame → Except ClientError α} {feed rest : Feed}
  {wait : Nat} {r : Except ClientError α}

/-- A message that is not passed over says something. -/
theorem exists_tells (h : kind.LetThrough address expect) {m : SocketMessage}
    (hm : ¬m.PassedOver) : ∃ r, kind.Tells address m r := by
  obtain ⟨result, hresult⟩ := Option.ne_none_iff_exists'.1 (mt frameOf_eq_none_iff.1 hm)
  exact ⟨_, (tells_iff h).2 ⟨result, hresult, rfl⟩⟩

/-- A receive returns, unless the node says nothing more that counts. -/
theorem returns_or_idle (h : kind.LetThrough address expect) (feed : Feed) :
    (∃ wait r rest, kind.Returns address feed wait r rest) ∨ feed.Idle := by
  obtain ⟨messages, ended⟩ := feed
  induction messages with
  | nil =>
    cases ended with
    | true => exact .inl ⟨_, _, _, .ended⟩
    | false => exact .inr ⟨rfl, nofun⟩
  | cons m messages ih =>
    obtain ⟨delay, m⟩ := m
    by_cases hm : m.PassedOver
    · obtain ⟨wait, r, rest, hreturns⟩ | ⟨hended, hidle⟩ := ih
      · exact .inl ⟨_, _, _, .passedOver hm hreturns⟩
      · exact .inr ⟨hended, List.forall_mem_cons.2 ⟨hm, hidle⟩⟩
    · obtain ⟨r, htells⟩ := exists_tells h hm
      cases hlast : m.isLast with
      | false => exact .inl ⟨_, _, _, .message htells hlast⟩
      | true => exact .inl ⟨_, _, _, .last htells hlast⟩

theorem receives_cons_of_passedOver {delay : Nat} {m : SocketMessage} (hm : m.PassedOver)
    (ended : Bool) (waited : Nat) (messages : List (Nat × SocketMessage)) :
    receives address expect ended waited ((delay, m) :: messages) =
      receives address expect ended (waited + delay) messages := by
  rw [receives, frameOf_eq_none_iff.2 hm]

theorem receives_cons_of_tells (h : kind.LetThrough address expect) {delay : Nat}
    {m : SocketMessage} (hm : kind.Tells address m r) (ended : Bool) (waited : Nat)
    (messages : List (Nat × SocketMessage)) :
    receives address expect ended waited ((delay, m) :: messages) =
      .ofResult (waited + delay) r ::
        if m.isLast then [] else receives address expect ended 0 messages := by
  obtain ⟨result, hframe, rfl⟩ := (tells_iff h).1 hm
  rw [receives, hframe]
  cases m.isLast <;> rfl

theorem receives_of_idle (hidle : feed.Idle) (waited : Nat) :
    receives address expect feed.ended waited feed.messages = [] := by
  obtain ⟨messages, ended⟩ := feed
  obtain ⟨hended, hpassed⟩ := hidle
  obtain rfl : ended = false := hended
  induction messages generalizing waited with
  | nil => rfl
  | cons m messages ih =>
    obtain ⟨hm, hrest⟩ := List.forall_mem_cons.1 hpassed
    exact (receives_cons_of_passedOver hm _ _ _).trans (ih _ hrest)

/-- The first receive of a session, and those after it. -/
theorem receives_of_returns (h : kind.LetThrough address expect)
    (hr : kind.Returns address feed wait r rest) (waited : Nat) :
    ∃ more, receives address expect feed.ended waited feed.messages =
        .ofResult (waited + wait) r :: more ∧
      (rest = .finished ∧ more = [] ∧ feed.ends = true ∨
        more = receives address expect rest.ended 0 rest.messages ∧ feed.ends = rest.ends) := by
  induction hr generalizing waited with
  | @passedOver delay wait m messages ended r rest hm _ ih =>
    obtain ⟨more, hmore, hrest⟩ := ih (waited + delay)
    have hlast : m.isLast = false := by
      cases m with
      | close => exact hm.elim
      | failure reason => exact hm.elim
      | _ => rfl
    have hends : (Feed.mk ((delay, m) :: messages) ended).ends = (Feed.mk messages ended).ends := by
      rw [Feed.ends, Feed.ends, List.any_cons, hlast, Bool.false_or]
    rw [receives_cons_of_passedOver hm, hends, ← Nat.add_assoc]
    exact ⟨more, hmore, hrest⟩
  | @message delay m messages ended r hm hlast =>
    refine ⟨_, receives_cons_of_tells h hm _ _ _, .inr ⟨by rw [hlast]; rfl, ?_⟩⟩
    rw [Feed.ends, Feed.ends, List.any_cons, hlast, Bool.false_or]
  | @last delay m messages ended r hm hlast =>
    refine ⟨_, receives_cons_of_tells h hm _ _ _, .inl ⟨rfl, by rw [hlast]; rfl, ?_⟩⟩
    rw [Feed.ends, List.any_cons, hlast, Bool.true_or, Bool.or_true]
  | ended => exact ⟨[], rfl, .inl ⟨rfl, rfl, rfl⟩⟩

end Receives

/-! ## Streams -/

/-- A reply that is the same whatever was ordered last. -/
def Reply.anyTx (r : Reply α) : Reply (String → α) where
  delay := r.delay
  outcome := match r.outcome with
    | .answered a => .answered fun _ => a
    | .failed e => .failed e
    | .silent => .silent

/-- A stream of a session of a kind has still to receive these messages. -/
inductive Stream.Follows (s : Stream α) (kind : FrameKind α) : Feed → Prop
  | pending {feed : Feed} {expect : Frame → Except ClientError α} :
      kind.LetThrough s.node.address expect →
      s.receiving = (receives s.node.address expect feed.ended 0 feed.messages).map Reply.anyTx →
      s.ended = (if feed.ends then some (connectionClosed s.node.address) else none) →
      Follows s kind feed
  | finished : s.receiving = [] → s.ended = some (connectionClosed s.node.address) →
      Follows s kind .finished

section Streams

variable {kind : FrameKind α} {s : Stream α} {feed rest : Feed} {wait : Nat}
  {r : Except ClientError α} {p q : Progress}

/-- A stream that has been opened follows what its node says on the connection. -/
theorem follows_ofConnection {id : NodeId} {expect : Frame → Except ClientError α}
    (h : kind.LetThrough id.address expect) (connectMs : Nat) (service : Service) (c : Connection) :
    (Stream.ofSession id (.ofConnection id.address connectMs service expect c)).Follows kind
      c.feed :=
  .pending h rfl rfl

/-- The next receive brings what the messages say, and the stream then follows what is left of
them. -/
theorem brings_of_returns (hs : s.Follows kind feed)
    (hr : kind.Returns s.node.address feed wait r rest) (txId : String) (start : Nat) :
    s.Brings txId start (start + wait) r ∧ s.next.Follows kind rest := by
  cases hs with
  | finished hreceiving hended =>
    cases hr
    exact ⟨.ended hreceiving hended, .finished (congrArg List.tail hreceiving) hended⟩
  | pending hkind hreceiving hended =>
    obtain ⟨more, hmore, hrest⟩ := receives_of_returns hkind hr 0
    rw [hmore, List.map_cons, Nat.zero_add] at hreceiving
    have hnext : s.next.receiving = more.map Reply.anyTx := congrArg List.tail hreceiving
    constructor
    · cases r with
      | ok a => exact .message hreceiving rfl
      | error e => exact .failed hreceiving rfl
    · obtain ⟨rfl, rfl, hends⟩ | ⟨rfl, hends⟩ := hrest
      · rw [hends] at hended
        exact .finished hnext hended
      · rw [hends] at hended
        exact .pending hkind hnext hended

/-- Where nothing outside stops the client, a receive that returns does so.  The stream then follows
what is left of the messages. -/
theorem receive_of_returns (hs : s.Follows kind feed)
    (hr : kind.Returns s.node.address feed wait r rest) (hlimit : p.limit = none) :
    ∃ q, s.receive p = .done (r.map fun a => (a, s.next)) q ∧ q.limit = none ∧
      s.next.Follows kind rest := by
  obtain ⟨hbrings, hnext⟩ := brings_of_returns hs hr p.lastTx p.clock
  have hrun := receive_of_brings hbrings (Progress.reaches_of_limit_none hlimit _)
  exact ⟨_, hrun, hlimit, hnext⟩

/-- A receive of a node that says nothing more never ends. -/
theorem receive_of_idle (hs : s.Follows kind feed) (hidle : feed.Idle)
    (result : Except ClientError (α × Stream α)) : s.receive p ≠ .done result q := by
  cases hs with
  | finished => cases hidle.1
  | pending hkind hreceiving hended =>
    have hends : feed.ends = false := by
      rw [Feed.ends, hidle.1, Bool.false_or, List.any_eq_false]
      intro m hm hlast
      have hpassed := hidle.2 m hm
      cases hmessage : m.2 with
      | close => rw [hmessage] at hpassed; exact hpassed
      | failure reason => rw [hmessage] at hpassed; exact hpassed
      | binary content => rw [hmessage] at hpassed; exact hpassed
      | text content => rw [hmessage] at hlast; cases hlast
      | ping content => rw [hmessage] at hlast; cases hlast
      | pong content => rw [hmessage] at hlast; cases hlast
    rw [receives_of_idle hidle] at hreceiving
    rw [hends] at hended
    rw [receive_nil_apply hreceiving, hended]
    exact nofun

/-! ## Whole sessions -/

/-- Receives so many times, whatever comes of each receive. -/
def Stream.receiveTimes : Nat → Stream α → Client (List (Except ClientError α))
  | 0, _ => return []
  | n + 1, s => do
    let result ← Client.attempt s.receive
    let results ← s.next.receiveTimes n
    return result.map (·.1) :: results

/-- The results of receives, one after the other. -/
inductive FrameKind.Transcript (kind : FrameKind α) (address : String) :
    Feed → List (Except ClientError α) → Prop
  | nil {feed : Feed} : Transcript kind address feed []
  | cons {feed rest : Feed} {wait : Nat} {r : Except ClientError α}
      {results : List (Except ClientError α)} : kind.Returns address feed wait r rest →
      Transcript kind address rest results → Transcript kind address feed (r :: results)

theorem Stream.receiveTimes_succ (n : Nat) (s : Stream α) :
    s.receiveTimes (n + 1) = Client.attempt s.receive >>= fun result =>
      s.next.receiveTimes n >>= fun results => pure (result.map (·.1) :: results) := rfl

/-- A stream follows its messages for a kind that its session lets through. -/
theorem Stream.Follows.exists_returns_or_idle (hs : s.Follows kind feed) :
    (∃ wait r rest, kind.Returns s.node.address feed wait r rest) ∨ feed.Idle := by
  cases hs with
  | finished => exact .inl ⟨_, _, _, .ended⟩
  | pending hkind => exact returns_or_idle hkind feed

theorem map_fst_map_pair {β : Type} (r : Except ClientError α) (b : β) :
    (r.map fun a => (a, b)).map (·.1) = r := by
  cases r <;> rfl

/-- The receives of a session, as often as one likes: they end exactly with the results that the
messages say, in the order of the messages. -/
theorem receiveTimes_iff (hs : s.Follows kind feed) (hlimit : p.limit = none) {n : Nat}
    {results : List (Except ClientError α)} :
    (∃ q, s.receiveTimes n p = .done (.ok results) q) ↔
      results.length = n ∧ kind.Transcript s.node.address feed results := by
  -- By induction on the number of receives: each of them leaves a stream that follows the rest.
  induction n generalizing s feed p results with
  | zero =>
    constructor
    · rintro ⟨q, h⟩
      cases h
      exact ⟨rfl, .nil⟩
    · rintro ⟨hlength, -⟩
      rw [List.length_eq_zero_iff.1 hlength]
      exact ⟨p, rfl⟩
  | succ n ih =>
    constructor
    · rintro ⟨q, h⟩
      rw [Stream.receiveTimes_succ] at h
      obtain ⟨result, q', hreceive, hrest⟩ := Client.attempt_bind_done.1 h
      obtain ⟨wait, r, rest, hreturns⟩ | hidle := hs.exists_returns_or_idle
      · obtain ⟨q', hrun, hlimit', hnext⟩ := receive_of_returns hs hreturns hlimit
        rw [hrun] at hreceive
        cases hreceive
        obtain ⟨results', q'', hresults, hpure⟩ := Client.bind_done_ok.1 hrest
        cases hpure
        rw [map_fst_map_pair]
        obtain ⟨hlength, htranscript⟩ := (ih hnext hlimit').1 ⟨_, hresults⟩
        exact ⟨congrArg (· + 1) hlength, .cons hreturns htranscript⟩
      · exact absurd hreceive (receive_of_idle hs hidle result)
    · rintro ⟨hlength, htranscript⟩
      cases htranscript with
      | nil => cases hlength
      | cons hreturns htranscript =>
        obtain ⟨q', hrun, hlimit', hnext⟩ := receive_of_returns hs hreturns hlimit
        obtain ⟨q, hresults⟩ := (ih hnext hlimit').2 ⟨Nat.succ.inj hlength, htranscript⟩
        refine ⟨q, ?_⟩
        rw [Stream.receiveTimes_succ, Client.attempt_bind_done]
        refine ⟨_, _, hrun, ?_⟩
        rw [map_fst_map_pair, Client.bind_of_ok hresults]
        rfl

end Streams

end LedgerClient
