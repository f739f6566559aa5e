import LedgerClient.Client.Channel
import LedgerClient.Proofs.Deadlines
import LedgerClient.Proofs.Update.Signing
/-!
# Fetching blocks

* `Orderer.Delivers`: a deliver stream opens, takes a request and gives a block in time.
  `fetch_of_delivers`: then the block is fetched.
* `Orderer.ServesConfig`: the newest block names the block with a configuration, and both are
  delivered.  `configBlock_of_serves`: then the configuration is found.
* `configBlock_asksOnly`: no broadcast stream is opened for it.
-/

namespace LedgerClient

/-- Time has passed and calls were noted, and nothing else has happened. -/
structure Progress.Passes (p q : Progress) : Prop where
  headers : q.headers = p.headers
  limit : q.limit = p.limit
  calls : q.calls = p.calls
  lastTx : q.lastTx = p.lastTx

theorem Progress.Passes.trans {p q r : Progress} (h : p.Passes q) (h' : q.Passes r) :
    p.Passes r where
  headers := h'.headers.trans h.headers
  limit := h'.limit.trans h.limit
  calls := h'.calls.trans h.calls
  lastTx := h'.lastTx.trans h.lastTx

theorem Progress.Passes.reaches {p q : Progress} (h : p.Passes q) {instant : Nat} :
    q.Reaches instant ↔ p.Reaches instant :=
  Progress.reaches_congr h.limit

/-! ## Streams -/

section Streams

variable {α : Type} {s : Stream α} {p : Progress}

/-- The next receive ends after so many milliseconds, with a message or a failure. -/
inductive Stream.Answers (s : Stream α) : Nat → Prop
  | message {reply : Reply (String → α)} {rest : List (Reply (String → α))} :
      s.receiving = reply :: rest → reply.outcome ≠ .silent → Answers s reply.delay
  | ended {e : ClientError} : s.receiving = [] → s.ended = some e → Answers s 0

theorem send_of_answered (h : s.sending.outcome = .answered ())
    (hreach : p.Reaches (p.clock + s.sending.delay)) (envelope : Envelope) :
    ∃ q, s.send envelope p = .done (.ok ()) q ∧ p.Passes q ∧
      q.clock = p.clock + s.sending.delay :=
  ⟨_, Client.bind_done_ok.2 ⟨(), _, Client.note_apply _ _ _,
    Client.await_done_ok.2 ⟨h, hreach, rfl⟩⟩, ⟨rfl, rfl, rfl, rfl⟩, rfl⟩

theorem receive_of_answered {reply : Reply (String → α)} {rest : List (Reply (String → α))}
    {message : String → α} (hs : s.receiving = reply :: rest)
    (hreply : reply.outcome = .answered message) (hreach : p.Reaches (p.clock + reply.delay)) :
    ∃ q, s.receive p = .done (.ok (message p.lastTx, s.next)) q ∧ p.Passes q ∧
      q.clock = p.clock + reply.delay :=
  ⟨_, receive_done_ok.2 ⟨reply, rest, message, hs, hreply, hreach, rfl, rfl⟩,
    ⟨rfl, rfl, rfl, rfl⟩, rfl⟩

theorem await_of_not_silent {r : Reply α} (h : r.outcome ≠ .silent)
    (hreach : p.Reaches (p.clock + r.delay)) :
    ∃ result q, Client.await r p = .done result q ∧ p.Passes q := by
  rw [Client.await_of_reaches hreach]
  cases hr : r.outcome with
  | answered a => exact ⟨.ok a, _, rfl, rfl, rfl, rfl, rfl⟩
  | failed e => exact ⟨.error e, _, rfl, rfl, rfl, rfl, rfl⟩
  | silent => exact absurd hr h

theorem receive_of_answers {wait : Nat} (h : s.Answers wait)
    (hreach : p.Reaches (p.clock + wait)) :
    ∃ result q, s.receive p = .done result q ∧ p.Passes q := by
  cases h with
  | message hs hreply =>
    rename_i reply rest
    have hpasses : p.Passes { p with asked := p.asked ++ [⟨p.clock, s.node, .receive⟩] } :=
      ⟨rfl, rfl, rfl, rfl⟩
    rw [receive_cons_apply hs]
    obtain ⟨result, q, hawait, hq⟩ := await_of_not_silent hreply (hpasses.reaches.2 hreach)
    cases result with
    | ok message =>
      rw [Client.bind_of_ok hawait]
      exact ⟨_, q, rfl, hpasses.trans hq⟩
    | error e =>
      rw [Client.bind_of_error hawait]
      exact ⟨_, q, rfl, hpasses.trans hq⟩
  | ended hs he =>
    rw [receive_nil_apply hs, he]
    exact ⟨_, _, rfl, rfl, rfl, rfl, rfl⟩

theorem close_of_not_silent (h : s.closing.outcome ≠ .silent)
    (hreach : p.Reaches (p.clock + s.closing.delay)) :
    ∃ result q, s.close p = .done result q ∧ p.Passes q := by
  have hpasses : p.Passes { p with asked := p.asked ++ [⟨p.clock, s.node, .close⟩] } :=
    ⟨rfl, rfl, rfl, rfl⟩
  rw [Stream.close, Client.bind_of_ok (Client.note_apply _ _ _)]
  obtain ⟨result, q, hawait, hq⟩ := await_of_not_silent h (hpasses.reaches.2 hreach)
  exact ⟨result, q, hawait, hpasses.trans hq⟩

end Streams

/-! ## Blocks -/

/-- The stream takes a request and gives a block in time; what comes next comes in time as well,
and the stream can be closed. -/
structure Stream.Serves (s : Stream DeliverResponse) (txId : String) (block : Block)
    (milliseconds : Nat) : Prop where
  sent : s.sending.outcome = .answered ()
  served : ∃ reply rest message wait, s.receiving = reply :: rest ∧
    reply.outcome = .answered message ∧ message txId = .block block ∧ s.next.Answers wait ∧
    s.sending.delay + reply.delay + wait ≤ milliseconds
  closes : s.closing.outcome ≠ .silent

section Blocks

variable {s : Stream DeliverResponse} {o : Orderer} {f : BlockFetcher} {block : Block}
  {milliseconds : Nat} {p : Progress}

/-- The block that is served is read, and what comes next is passed over. -/
theorem readBlock_of_serves (h : s.Serves p.lastTx block milliseconds)
    (hreach : p.Reaches (p.clock + milliseconds)) (address : String) (seek : Envelope) :
    ∃ q, readBlock address s seek p = .done (.ok block) q ∧ p.Passes q := by
  obtain ⟨reply, rest, message, wait, hs, hreply, hblock, hnext, hle⟩ := h.served
  obtain ⟨p₁, hsend, hp₁, hclock₁⟩ := send_of_answered h.sent (hreach.mono (by omega)) seek
  obtain ⟨p₂, hreceive, hp₂, hclock₂⟩ := receive_of_answered hs hreply
    (hp₁.reaches.2 (hreach.mono (by omega)))
  have hpasses := hp₁.trans hp₂
  obtain ⟨result, p₃, hfollow, hp₃⟩ := receive_of_answers hnext
    (hpasses.reaches.2 (hreach.mono (by omega)))
  refine ⟨p₃, ?_, hpasses.trans hp₃⟩
  refine Client.bind_done_ok.2 ⟨(), p₁, hsend, Client.bind_done_ok.2 ⟨_, p₂, hreceive, ?_⟩⟩
  rw [hp₁.lastTx, hblock]
  exact Client.attempt_bind_done.2 ⟨result, p₃, hfollow, rfl⟩

theorem within_readBlock_of_serves (h : s.Serves p.lastTx block milliseconds)
    (hreach : p.Reaches (p.clock + milliseconds)) (expired : ClientError) (address : String)
    (seek : Envelope) :
    ∃ q, Client.within milliseconds expired (readBlock address s seek) p = .done (.ok block) q ∧
      p.Passes q := by
  let inner : Progress := { p with limit := some (p.before (p.clock + milliseconds)) }
  have hinner : inner.Reaches (inner.clock + milliseconds) :=
    Progress.reaches_within.2 ⟨Nat.le_refl _, hreach⟩
  obtain ⟨q, hread, hq⟩ := readBlock_of_serves (p := inner) h hinner address seek
  exact ⟨_, Client.within_done_ok.2 ⟨q, hread, rfl⟩, hq.headers, rfl, hq.calls, hq.lastTx⟩

/-- The deliver stream of a number opens and serves a block. -/
def Orderer.Delivers (o : Orderer) (number : Nat) (txId : String) (block : Block)
    (milliseconds : Nat) : Prop :=
  (o.deliver number).opening.outcome = .answered () ∧
    (Stream.ofSession o.id (o.deliver number)).Serves txId block milliseconds

/-- The progress when another deliver stream has been asked for. -/
def Orderer.counted (o : Orderer) (p : Progress) : Progress :=
  { p with calls := countCall p.calls o.id .deliver }

theorem openDeliver_of_answered
    (h : (o.deliver (p.calls o.id .deliver)).opening.outcome = .answered ())
    (hlimit : p.limit = none) :
    ∃ q, o.openDeliver p = .done (.ok (.ofSession o.id (o.deliver (p.calls o.id .deliver)))) q ∧
      (o.counted p).Passes q :=
  ⟨_, Client.openSession_done_ok.2 ⟨h, Progress.reaches_of_limit_none hlimit _, rfl, rfl⟩,
    rfl, rfl, rfl, rfl⟩

/-- Reads a block on a stream that has been opened, and closes it. -/
def BlockFetcher.readOn (f : BlockFetcher) (s : Stream DeliverResponse) (seek : Envelope) :
    Client Block := do
  let result ← Client.attempt <| Client.within f.timeoutMs (.timeout "block fetch" f.timeoutMs) <|
    readBlock f.orderer.id.address s seek
  let _ ← Client.attempt s.close
  result

theorem fetch_eq (f : BlockFetcher) (position : SeekPosition) :
    f.fetch position =
      (liftM (seekEnvelope f.channelId f.signer (.single position f.bestEffort) f.tlsCertHash) :
        Client Envelope) >>= fun envelope =>
      f.orderer.openDeliver >>= fun s => f.readOn s envelope := rfl

/-- The progress when an envelope has been made and a deliver stream asked for. -/
def BlockFetcher.fetchedAt (f : BlockFetcher) (p : Progress) : Progress :=
  { f.orderer.counted p with headers := { p.headers with drawn := p.headers.drawn + 1 } }

/-- A block that the next deliver stream serves is fetched. -/
theorem fetch_of_delivers (hsigner : f.signer.Total) (hlimit : p.limit = none)
    (h : f.orderer.Delivers (p.calls f.orderer.id .deliver) p.lastTx block f.timeoutMs)
    (position : SeekPosition) :
    ∃ q, f.fetch position p = .done (.ok block) q ∧ (f.fetchedAt p).Passes q := by
  obtain ⟨hopening, hserves⟩ := h
  obtain ⟨envelope, hsigned⟩ := hsigner.signedEnvelope .deliverSeekInfo f.channelId
    (toWire (SeekInfo.single position f.bestEffort)) f.tlsCertHash p.headers
  -- The stream opens, the block is read under the deadline, and the stream is closed.
  obtain ⟨p₁, hopen, hp₁⟩ : ∃ p₁, f.orderer.openDeliver
      { p with headers := { p.headers with drawn := p.headers.drawn + 1 } } = .done (.ok _) p₁ ∧
        (f.fetchedAt p).Passes p₁ := openDeliver_of_answered hopening hlimit
  have hlimit₁ : p₁.limit = none := hp₁.limit.trans hlimit
  rw [← show p₁.lastTx = p.lastTx from hp₁.lastTx] at hserves
  obtain ⟨p₂, hread, hp₂⟩ := within_readBlock_of_serves hserves
    (Progress.reaches_of_limit_none hlimit₁ _) (.timeout "block fetch" f.timeoutMs)
    f.orderer.id.address envelope
  obtain ⟨result, p₃, hclose, hp₃⟩ := close_of_not_silent (p := p₂) hserves.closes
    (Progress.reaches_of_limit_none (hp₂.limit.trans hlimit₁) _)
  refine ⟨p₃, ?_, (hp₁.trans hp₂).trans hp₃⟩
  refine Client.bind_done_ok.2 ⟨envelope, _, Client.issue_done_ok.2 ⟨_, hsigned, rfl⟩, ?_⟩
  refine Client.bind_done_ok.2 ⟨_, p₁, hopen, ?_⟩
  refine Client.attempt_bind_done.2 ⟨.ok block, p₂, hread, ?_⟩
  exact Client.attempt_bind_done.2 ⟨result, p₃, hclose, rfl⟩

end Blocks

/-! ## Configurations -/

section Configurations

variable {f : BlockFetcher} {config : Config} {p : Progress}

/-- The next deliver streams serve a configuration: the newest block, which names the block that
holds the configuration, and this block, if it is another one. -/
def Orderer.ServesConfig (o : Orderer) (p : Progress) (milliseconds : Nat) (config : Config) :
    Prop :=
  ∃ newest index block envelope,
    o.Delivers (p.calls o.id .deliver) p.lastTx newest milliseconds ∧
    newest.lastConfigIndex = .ok index ∧
    (if index = newest.header.number then block = newest
      else o.Delivers (p.calls o.id .deliver + 1) p.lastTx block milliseconds) ∧
    block.configEnvelope = .ok envelope ∧ envelope.config = config

/-- A configuration that is served is found. -/
theorem configBlock_of_serves (hsigner : f.signer.Total) (hlimit : p.limit = none)
    (h : f.orderer.ServesConfig p f.timeoutMs config) :
    ∃ block envelope q, f.configBlock p = .done (.ok block) q ∧
      block.configEnvelope = .ok envelope ∧ envelope.config = config := by
  obtain ⟨newest, index, block, envelope, hnewest, hindex, hblock, henvelope, hconfig⟩ := h
  obtain ⟨p₁, hfetch, hp₁⟩ := fetch_of_delivers hsigner hlimit hnewest .newest
  have hrest : ∃ q, (if index = newest.header.number then pure newest
      else f.specified index : Client Block) p₁ = .done (.ok block) q := by
    split at hblock
    · rename_i hsame
      rw [if_pos hsame, hblock]
      exact ⟨p₁, rfl⟩
    · rename_i hother
      -- The first fetch has counted one deliver stream.
      have hcalls : p₁.calls f.orderer.id .deliver = p.calls f.orderer.id .deliver + 1 := by
        rw [hp₁.calls]
        exact if_pos ⟨rfl, rfl⟩
      rw [← hcalls, ← show p₁.lastTx = p.lastTx from hp₁.lastTx] at hblock
      obtain ⟨q, hfetch, -⟩ :=
        fetch_of_delivers hsigner (hp₁.limit.trans hlimit) hblock (.specified index)
      rw [if_neg hother]
      exact ⟨q, hfetch⟩
  obtain ⟨q, hq⟩ := hrest
  refine ⟨block, envelope, q, ?_, henvelope, hconfig⟩
  refine Client.bind_done_ok.2 ⟨newest, p₁, hfetch, ?_⟩
  exact Client.bind_done_ok.2 ⟨index, p₁, Client.lift_done_ok.2 ⟨hindex, rfl⟩, hq⟩

/-! ### What is asked -/

/-- A call that opens no broadcast stream. -/
def NoBroadcast (_ : NodeId) (call : Call) : Prop := call ≠ .openBroadcast

theorem receive_asksOnly (s : Stream DeliverResponse) : Client.AsksOnly NoBroadcast s.receive := by
  refine .bind (.note Call.noConfusion) fun _ => ?_
  split
  · exact .never
  · exact .throw _
  · exact .bind (.await _) fun _ => .bind .progress fun _ => .pure _

/-- The request is the first thing on the stream. -/
theorem readBlock_asked (address : String) (s : Stream DeliverResponse) (seek : Envelope)
    (p : Progress) :
    ∃ more, (readBlock address s seek p).progress.asked =
        p.asked ++ ⟨p.clock, s.node, .send seek⟩ :: more ∧
      ∀ a ∈ more, NoBroadcast a.node a.call := by
  refine Client.bind_asked_cons (send_asked s seek p) fun _ => ?_
  refine .bind (receive_asksOnly s) fun ⟨response, next⟩ => ?_
  cases response with
  | block block => exact .bind (.attempt (receive_asksOnly next)) fun _ => .pure _
  | status status => exact .throw _
  | filteredBlock block => exact .throw _

theorem readBlock_asksOnly (address : String) (s : Stream DeliverResponse) (seek : Envelope) :
    Client.AsksOnly NoBroadcast (readBlock address s seek) := by
  intro p
  obtain ⟨more, hasked, hmore⟩ := readBlock_asked address s seek p
  exact ⟨_, hasked, List.forall_mem_cons.2 ⟨Call.noConfusion, hmore⟩⟩

theorem fetch_asksOnly (f : BlockFetcher) (position : SeekPosition) :
    Client.AsksOnly NoBroadcast (f.fetch position) := by
  refine .bind (.issue _) fun envelope => .bind ?_ fun s => ?_
  · refine .bind (.bind .progress fun _ => .bind (.of_keeps fun _ => rfl) fun _ => .pure _)
      fun _ => ?_
    exact .bind (.note Call.noConfusion) fun _ => .bind (.await _) fun _ => .pure _
  · refine .bind (.attempt (.within (readBlock_asksOnly _ _ _))) fun _ => ?_
    refine .bind (.attempt (.bind (.note Call.noConfusion) fun _ => .await _)) fun _ => ?_
    exact .lift _

/-- The search for a configuration opens no broadcast stream. -/
theorem configBlock_asksOnly (f : BlockFetcher) :
    Client.AsksOnly NoBroadcast f.configBlock := by
  refine .bind (fetch_asksOnly f _) fun newest => .bind (.lift _) fun index => ?_
  split
  · exact .pure _
  · exact fetch_asksOnly f _

end Configurations

end LedgerClient
