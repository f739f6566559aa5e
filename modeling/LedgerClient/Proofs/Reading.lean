import LedgerClient.Proofs.Fetching
/-!
# A block and what follows it

A fetch reads one block, passes over the message that follows it, and closes the stream.  The first
two of these share a deadline, and nothing limits the third.

* `Stream.ReadsBlock`: how and when reading ends by itself.  `readBlock_ends`: so it ends where
  nothing stops it.  `fetch_of_opens`: what a fetch makes of that.
* `fetch_of_block`: a block is returned if the message after it comes in time and the close ends,
  however these turn out.  It is lost otherwise: the fetch expires, or it never returns.
* `newest_loses_block`: the block comes at once in both cases.
-/

namespace LedgerClient

/-! ## Reading -/

/-- Reading a block, begun at an instant, ends by itself at another: the stream does not take the
request, or it takes it and then brings a failure, a message that is no block, or a block, which is
returned once the next receive has ended. -/
inductive Stream.ReadsBlock (s : Stream DeliverResponse) (txId address : String) (start : Nat) :
    Nat → Except ClientError Block → Prop
  | unsent {t : Nat} {e : ClientError} : s.sending.ending? start = some (t, .error e) →
      ReadsBlock s txId address start t (.error e)
  | broken {sent t : Nat} {e : ClientError} : s.sending.ending? start = some (sent, .ok ()) →
      s.Brings txId sent t (.error e) → ReadsBlock s txId address start t (.error e)
  | status {sent t : Nat} {status : Status} : s.sending.ending? start = some (sent, .ok ()) →
      s.Brings txId sent t (.ok (.status status)) →
      ReadsBlock s txId address start t (.error (.unexpectedDeliverResponse address
        s!"can't read the block: {status.message}"))
  | filtered {sent t : Nat} {block : FilteredBlock} :
      s.sending.ending? start = some (sent, .ok ()) →
      s.Brings txId sent t (.ok (.filteredBlock block)) →
      ReadsBlock s txId address start t (.error (.unexpectedDeliverResponse address
        s!"filtered block {block.number.toNat} on a block stream"))
  | block {sent given t : Nat} {block : Block} {next : Except ClientError DeliverResponse} :
      s.sending.ending? start = some (sent, .ok ()) →
      s.Brings txId sent given (.ok (.block block)) → s.next.Brings txId given t next →
      ReadsBlock s txId address start t (.ok block)

/-- The stream takes a request that is sent at an instant, and a block is the first message, which
comes at another. -/
def Stream.Gives (s : Stream DeliverResponse) (txId : String) (start given : Nat)
    (block : Block) : Prop :=
  ∃ sent, s.sending.ending? start = some (sent, .ok ()) ∧
    s.Brings txId sent given (.ok (.block block))

section Reading

variable {s : Stream DeliverResponse} {txId address : String} {start given t : Nat} {block : Block}
  {p : Progress} {result : Except ClientError Block}

/-- Where the first message is a block, reading ends with the next receive. -/
theorem readsBlock_iff_of_gives (h : s.Gives txId start given block) :
    s.ReadsBlock txId address start t result ↔
      result = .ok block ∧ ∃ next, s.next.Brings txId given t next := by
  obtain ⟨sent, hsend, hbrings⟩ := h
  constructor
  · intro hreads
    cases hreads with
    | unsent hsend' => cases hsend.symm.trans hsend'
    | broken hsend' hbrings' =>
      cases hsend.symm.trans hsend'
      cases (hbrings.unique hbrings').2
    | status hsend' hbrings' =>
      cases hsend.symm.trans hsend'
      cases (hbrings.unique hbrings').2
    | filtered hsend' hbrings' =>
      cases hsend.symm.trans hsend'
      cases (hbrings.unique hbrings').2
    | block hsend' hbrings' hnext =>
      cases hsend.symm.trans hsend'
      obtain ⟨rfl, heq⟩ := hbrings.unique hbrings'
      cases heq
      exact ⟨rfl, _, hnext⟩
  · rintro ⟨rfl, next, hnext⟩
    exact .block hsend hbrings hnext

/-! ### Its run -/

/-- What reading does with the first message. -/
def expectBlock (address : String) : DeliverResponse × Stream DeliverResponse → Client Block
  | (.block block, next) => do
    let _ ← Client.attempt next.receive
    return block
  | (.status status, _) =>
    throw (.unexpectedDeliverResponse address s!"can't read the block: {status.message}")
  | (.filteredBlock block, _) =>
    throw (.unexpectedDeliverResponse address
      s!"filtered block {block.number.toNat} on a block stream")

theorem readBlock_eq (address : String) (s : Stream DeliverResponse) (seek : Envelope) :
    readBlock address s seek = s.send seek >>= fun _ => s.receive >>= expectBlock address := by
  refine congrArg (s.send seek >>= ·) (funext fun _ => congrArg (s.receive >>= ·) (funext ?_))
  rintro ⟨response, next⟩
  cases response <;> rfl

/-- Past the send, reading goes on with the first message. -/
theorem readBlock_of_sent (address : String) (seek : Envelope)
    (h : s.sending.ending? p.clock = some (t, .ok ())) (hreach : p.Reaches t) :
    readBlock address s seek p = (s.receive >>= expectBlock address) { p with
      asked := p.asked ++ [⟨p.clock, s.node, .send seek⟩], clock := t } := by
  rw [readBlock_eq, Client.bind_of_ok (send_of_ending seek h hreach)]

/-- Past the first message, reading goes on with what that is. -/
theorem readBlock_of_received {sent : Nat} {response : DeliverResponse} (address : String)
    (seek : Envelope) (hsend : s.sending.ending? p.clock = some (sent, .ok ()))
    (hbrings : s.Brings p.lastTx sent t (.ok response)) (hreach : p.Reaches t) :
    readBlock address s seek p = expectBlock address (response, s.next) { p with
      asked := p.asked ++ [⟨p.clock, s.node, .send seek⟩] ++ [⟨sent, s.node, .receive⟩]
      clock := t } := by
  have hreceive := receive_of_brings (p := { p with
    asked := p.asked ++ [⟨p.clock, s.node, .send seek⟩], clock := sent }) hbrings hreach
  rw [readBlock_of_sent address seek hsend (hreach.mono hbrings.le)]
  exact Client.bind_of_ok hreceive

/-- Reading that has received a block ends with the next receive. -/
theorem expectBlock_ends {next : Stream DeliverResponse} (address : String) (block : Block)
    (p : Progress) (hnow : p.Reaches p.clock) :
    (expectBlock address (.block block, next)).Ends p fun t result =>
      result = .ok block ∧ ∃ brought, next.Brings p.lastTx p.clock t brought where
  done := by
    rintro t result ⟨rfl, brought, hbrings⟩ hreach
    have hreceive := receive_of_brings hbrings hreach
    exact ⟨_, Client.attempt_bind_done.2 ⟨_, _, hreceive, rfl⟩, rfl⟩
  stopped := by
    intro h
    obtain ⟨q, hrun⟩ := receive_stopped hnow fun t brought hbrings => h t _ ⟨rfl, brought, hbrings⟩
    have hattempt : Client.attempt next.receive p = .stopped q := by
      rw [Client.attempt_apply, hrun]
    exact ⟨q, Client.bind_of_stopped hattempt⟩

/-- Reading ends as the stream has it. -/
theorem readBlock_ends (address : String) (s : Stream DeliverResponse) (seek : Envelope)
    (p : Progress) :
    (readBlock address s seek).Ends p (s.ReadsBlock p.lastTx address p.clock) where
  done := by
    intro t result h hreach
    cases h with
    | unsent hsend =>
      rw [readBlock_eq]
      exact ⟨_, Client.bind_of_error (send_of_ending seek hsend hreach), rfl⟩
    | @broken sent _ _ hsend hbrings =>
      have hreceive := receive_of_brings (p := { p with
        asked := p.asked ++ [⟨p.clock, s.node, .send seek⟩], clock := sent }) hbrings hreach
      rw [readBlock_of_sent address seek hsend (hreach.mono hbrings.le)]
      exact ⟨_, Client.bind_of_error hreceive, rfl⟩
    | status hsend hbrings =>
      rw [readBlock_of_received address seek hsend hbrings hreach]
      exact ⟨_, rfl, rfl⟩
    | filtered hsend hbrings =>
      rw [readBlock_of_received address seek hsend hbrings hreach]
      exact ⟨_, rfl, rfl⟩
    | @block _ _ _ block _ hsend hbrings hnext =>
      have hgiven := hreach.mono hnext.le
      rw [readBlock_of_received address seek hsend hbrings hgiven]
      exact (expectBlock_ends address block _ hgiven).done ⟨rfl, _, hnext⟩ hreach
  stopped := by
    intro h
    by_cases hsent : ∃ t, s.sending.ending? p.clock = some (t, .ok ()) ∧ p.Reaches t
    · obtain ⟨sent, hsend, hin⟩ := hsent
      by_cases hbrought : ∃ t brought, s.Brings p.lastTx sent t brought ∧ p.Reaches t
      · obtain ⟨t, brought, hbrings, hreach⟩ := hbrought
        -- What has been received is a block, since all else ends the reading.
        cases brought with
        | error e => exact absurd hreach (h t _ (.broken hsend hbrings))
        | ok response =>
          cases response with
          | status status => exact absurd hreach (h t _ (.status hsend hbrings))
          | filteredBlock block => exact absurd hreach (h t _ (.filtered hsend hbrings))
          | block block =>
            rw [readBlock_of_received address seek hsend hbrings hreach]
            refine (expectBlock_ends address block _ hreach).stopped fun t' result hend => ?_
            obtain ⟨rfl, next, hnext⟩ := hend
            exact h t' _ (.block hsend hbrings hnext)
      · let asking : Progress := { p with
          asked := p.asked ++ [⟨p.clock, s.node, .send seek⟩], clock := sent }
        obtain ⟨q, hrun⟩ := receive_stopped (p := asking) hin fun t brought hbrings hreach =>
          hbrought ⟨t, brought, hbrings, hreach⟩
        rw [readBlock_of_sent address seek hsend hin]
        exact ⟨q, Client.bind_of_stopped hrun⟩
    · obtain ⟨q, hrun⟩ := send_stopped (s := s) seek fun t result hsend hreach => by
        cases result with
        | error e => exact h t _ (.unsent hsend) hreach
        | ok _ => exact hsent ⟨t, hsend, hreach⟩
      rw [readBlock_eq]
      exact ⟨q, Client.bind_of_stopped hrun⟩

end Reading

/-! ## Fetching -/

section Fetching

variable {f : BlockFetcher} {p : Progress} {position : SeekPosition} {envelope : Envelope}
  {headers : HeaderSource} {block : Block} {given : Nat}

/-- A block is read under the deadline, and what comes of that is the result once the stream has
been closed. -/
theorem readOn_run (f : BlockFetcher) (s : Stream DeliverResponse) (seek : Envelope)
    (hlimit : p.limit = none) :
    ∃ t result, ByDeadline (s.ReadsBlock p.lastTx f.orderer.id.address p.clock)
        (p.clock + f.timeoutMs) (.timeout "block fetch" f.timeoutMs) t result ∧
      (s.closing.outcome ≠ .silent → ∃ q, f.readOn s seek p = .done result q) ∧
      (s.closing.outcome = .silent → ∃ q, f.readOn s seek p = .stopped q) := by
  obtain ⟨t, result, q, hread, hby, -, hlimit'⟩ :=
    (readBlock_ends f.orderer.id.address s seek _).within hlimit
      (.timeout "block fetch" f.timeoutMs)
  refine ⟨t, result, hby, fun hcloses => ?_, fun hsilent => ?_⟩
  · obtain ⟨closed, q', hclose, -⟩ := close_of_not_silent (p := q) hcloses
      (Progress.reaches_of_limit_none hlimit' _)
    exact ⟨q', Client.attempt_bind_done.2 ⟨result, q, hread,
      Client.attempt_bind_done.2 ⟨closed, q', hclose, rfl⟩⟩⟩
  · obtain ⟨q', hclose⟩ := (close_ends s q).stopped fun t closed hend => by
      obtain ⟨-, ⟨_, ho, -⟩ | ⟨_, ho, -⟩⟩ := Reply.ending?_eq_some.1 hend <;>
        cases hsilent.symm.trans ho
    have hattempt : Client.attempt (Client.within f.timeoutMs (.timeout "block fetch" f.timeoutMs)
        (readBlock f.orderer.id.address s seek)) p = .done (.ok result) q := by
      rw [Client.attempt_apply, hread]
    have hclosing : Client.attempt s.close q = .stopped q' := by
      rw [Client.attempt_apply, hclose]
    exact ⟨q', (Client.bind_of_ok hattempt).trans (Client.bind_of_stopped hclosing)⟩

/-- A fetch whose stream opens gives what reading under the deadline gives, once the stream has been
closed. -/
theorem fetch_of_opens (hlimit : p.limit = none)
    (hseek : seekEnvelope f.channelId f.signer (.single position f.bestEffort) f.tlsCertHash
      p.headers = .ok envelope headers)
    (hopens : (f.orderer.deliver (p.calls f.orderer.id .deliver)).opening.outcome =
      .answered ()) :
    let session := f.orderer.deliver (p.calls f.orderer.id .deliver)
    let opened := p.clock + session.opening.delay
    ∃ t result, ByDeadline ((Stream.ofSession f.orderer.id session).ReadsBlock p.lastTx
          f.orderer.id.address opened) (opened + f.timeoutMs)
          (.timeout "block fetch" f.timeoutMs) t result ∧
      (session.closing.outcome ≠ .silent → ∃ q, f.fetch position p = .done result q) ∧
      (session.closing.outcome = .silent → ∃ q, f.fetch position p = .stopped q) := by
  intro session opened
  let start : Progress := { p with headers := headers }
  let asking : Progress := { f.orderer.counted start with
    asked := p.asked ++ [⟨p.clock, f.orderer.id, .openDeliver⟩] }
  have hopen : f.orderer.openDeliver start =
      .done (.ok (.ofSession f.orderer.id session)) { asking with clock := opened } :=
    Client.openSession_done_ok.2 ⟨hopens, Progress.reaches_of_limit_none hlimit _, rfl, rfl⟩
  rw [fetch_eq, Client.bind_of_ok (Client.issue_done_ok.2 ⟨headers, hseek, rfl⟩),
    Client.bind_of_ok hopen]
  exact readOn_run f (.ofSession f.orderer.id session) envelope
    (p := { asking with clock := opened }) hlimit

/-- What a fetch makes of a stream that brings a block first.

The block is returned if the next receive, whatever it brings, ends by the deadline and the close of
the stream ends, failed or not.  Without anything after the block in time the fetch expires, however
early the block has come, and it never returns if the close never ends. -/
theorem fetch_of_block (hlimit : p.limit = none)
    (hseek : seekEnvelope f.channelId f.signer (.single position f.bestEffort) f.tlsCertHash
      p.headers = .ok envelope headers)
    (hopens : (f.orderer.deliver (p.calls f.orderer.id .deliver)).opening.outcome =
      .answered ()) :
    let session := f.orderer.deliver (p.calls f.orderer.id .deliver)
    let s := Stream.ofSession f.orderer.id session
    let opened := p.clock + session.opening.delay
    let deadline := opened + f.timeoutMs
    s.Gives p.lastTx opened given block →
      (session.closing.outcome ≠ .silent →
        ((∃ t ≤ deadline, ∃ next, s.next.Brings p.lastTx given t next) →
          ∃ q, f.fetch position p = .done (.ok block) q) ∧
        ((∀ t next, s.next.Brings p.lastTx given t next → deadline < t) →
          ∃ q, f.fetch position p = .done (.error (.timeout "block fetch" f.timeoutMs)) q)) ∧
      (session.closing.outcome = .silent → ∃ q, f.fetch position p = .stopped q) := by
  intro session s opened deadline hgives
  obtain ⟨t, result, hby, hcloses, hsilent⟩ := fetch_of_opens hlimit hseek hopens
  refine ⟨fun hends => ⟨?_, fun hlate => ?_⟩, hsilent⟩
  · rintro ⟨t', hle, next, hnext⟩
    have hreads : s.ReadsBlock p.lastTx f.orderer.id.address opened t' (.ok block) :=
      (readsBlock_iff_of_gives hgives).2 ⟨rfl, next, hnext⟩
    cases hby with
    | inTime hreads' =>
      cases ((readsBlock_iff_of_gives hgives).1 hreads').1
      exact hcloses hends
    | late hlate => exact absurd (hlate _ _ hreads) (Nat.not_lt.2 hle)
  · cases hby with
    | inTime hreads hle =>
      obtain ⟨-, next, hnext⟩ := (readsBlock_iff_of_gives hgives).1 hreads
      exact absurd (hlate _ _ hnext) (Nat.not_lt.2 hle)
    | late _ => exact hcloses hends

end Fetching

/-! ### Blocks without a message after them -/

def bareBlock : Block := ⟨⟨0, [], []⟩, ⟨[]⟩, ⟨[]⟩⟩

/-- Fetches from an orderer that gives a block at once, and then the messages, and whose streams
close in the same way each. -/
def bareFetcher (following : List (Reply (String → DeliverResponse))) (closing : Reply Unit) :
    BlockFetcher where
  orderer := {
    id := ⟨.orderer, 0, "orderer:7050"⟩
    broadcast := fun _ => {}
    deliver := fun _ => {
      receiving := .now (fun _ => .block bareBlock) :: following
      closing := closing } }
  signer := neutralSigner "Org1MSP"
  channelId := "ch"

/-- The stream of such a fetch. -/
def bareStream (following : List (Reply (String → DeliverResponse))) (closing : Reply Unit) :
    Stream DeliverResponse :=
  let orderer := (bareFetcher following closing).orderer
  .ofSession orderer.id (orderer.deliver 0)

theorem bareStream_gives (following : List (Reply (String → DeliverResponse)))
    (closing : Reply Unit) : (bareStream following closing).Gives "" 0 0 bareBlock :=
  have hend : (Reply.now fun _ : String => DeliverResponse.block bareBlock).ending? 0 =
    some (0, .ok fun _ => .block bareBlock) := rfl
  ⟨0, rfl, .message rfl hend⟩

/-- A block that a transport error and a failing close follow is returned. -/
theorem fetch_of_block_brokenOff :
    let broken : ClientError := .transport "orderer:7050" "broken pipe"
    let f := bareFetcher [{ delay := 3, outcome := .failed broken }] { outcome := .failed broken }
    let p : Progress := { headers := ⟨⟨0, 0⟩, 0⟩ }
    p.limit = none ∧ (f.orderer.deliver 0).opening.outcome = .answered () ∧
      (∃ envelope headers, seekEnvelope f.channelId f.signer (.single .oldest f.bestEffort)
        f.tlsCertHash p.headers = .ok envelope headers) ∧
      ∃ q, f.oldest p = .done (.ok bareBlock) q := by
  intro broken f p
  have hsigner : f.signer.Total := ⟨fun _ => ⟨_, rfl⟩, fun _ => ⟨_, rfl⟩⟩
  obtain ⟨envelope, hseek⟩ := hsigner.signedEnvelope .deliverSeekInfo f.channelId
    (toWire (SeekInfo.single .oldest f.bestEffort)) f.tlsCertHash p.headers
  have hfollows : (bareStream [{ delay := 3, outcome := .failed broken }]
      { outcome := .failed broken }).next.Brings "" 0 3 (.error broken) := .failed rfl rfl
  obtain ⟨hends, -⟩ := fetch_of_block (f := f) (p := p) rfl hseek rfl (bareStream_gives _ _)
  exact ⟨rfl, rfl, ⟨envelope, _, hseek⟩,
    (hends nofun).1 ⟨3, by decide, .error broken, hfollows⟩⟩

/-- The block comes at once, but what follows decides: without anything the fetch expires, and with
a success status and a close that never ends it never returns. -/
theorem newest_loses_block :
    let p : Progress := { headers := ⟨⟨0, 0⟩, 0⟩ }
    let alone := bareFetcher [] (.now ())
    let closing := bareFetcher [.now fun _ => .status .success] { outcome := .silent }
    (bareStream [] (.now ())).Gives "" 0 0 bareBlock ∧
      (∃ q, alone.newest p = .done (.error (.timeout "block fetch" 10000)) q) ∧
      (bareStream [.now fun _ => .status .success] { outcome := .silent }).Gives
        "" 0 0 bareBlock ∧
      ∃ q, closing.newest p = .stopped q := by
  intro p alone closing
  have hsigner : alone.signer.Total := ⟨fun _ => ⟨_, rfl⟩, fun _ => ⟨_, rfl⟩⟩
  obtain ⟨envelope, hseek⟩ := hsigner.signedEnvelope .deliverSeekInfo "ch"
    (toWire (SeekInfo.single .newest false)) none p.headers
  refine ⟨bareStream_gives _ _, ?_, bareStream_gives _ _, ?_⟩
  · obtain ⟨t, result, hby, hends, -⟩ := fetch_of_opens (f := alone) (p := p) rfl hseek rfl
    have hgives : (bareStream [] (.now ())).Gives "" 0 0 bareBlock := bareStream_gives _ _
    cases hby with
    | inTime hreads _ =>
      obtain ⟨-, next, hnext⟩ := (readsBlock_iff_of_gives hgives).1 hreads
      cases hnext with
      | message hs => cases hs
      | failed hs => cases hs
      | ended _ he => cases he
    | late _ => exact hends nofun
  · obtain ⟨_, _, -, -, hsilent⟩ := fetch_of_opens (f := closing) (p := p) rfl hseek rfl
    exact hsilent rfl

end LedgerClient
