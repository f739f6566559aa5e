import LedgerClient.Proofs.Group.Connecting
import LedgerClient.Proofs.Group.Waiting
/-!
# The outcome of a deliver group

`connect_then_wait`: a new group connects exactly when every peer opens its stream
and accepts the seek request in time, and a connected group confirms exactly when
every stream reports the transaction as valid in time.  Otherwise the result is the
failure of a peer that failed earliest, or the expiry where none failed in time.
-/

namespace LedgerClient

/-- The call ends as soon as it begins. -/
def Reply.Prompt {α : Type} (r : Reply α) : Prop :=
  r.delay = 0 ∧ ∃ result, r.ending? 0 = some (0, result)

theorem Reply.Prompt.ending? {α : Type} {r : Reply α} (h : r.Prompt) (start : Nat) :
    ∃ result, r.ending? start = some (start, result) := by
  obtain ⟨hdelay, result, hend⟩ := h
  refine ⟨result, ending?_eq_some.2 ⟨by rw [hdelay, Nat.add_zero], ?_⟩⟩
  exact (ending?_eq_some.1 hend).2

namespace DeliverGroup

/-- How and when reading the stream of a session ends. -/
def SessionEnds (txId : String) (p : Progress) (x : NodeId × Session DeliverResponse) (t : Nat)
    (result : Except ClientError Unit) : Prop :=
  ∃ v, Reads txId x.1.address p.lastTx x.2.ended p.clock x.2.receiving t v ∧ v.result = result

theorem streamEnds_ofSession {g : DeliverGroup} {p : Progress}
    {x : NodeId × Session DeliverResponse} (hclose : x.2.closing.Prompt) (t : Nat)
    (result : Except ClientError Unit) :
    g.StreamEnds p (.ofSession x.1 x.2) t result ↔ SessionEnds g.txId p x t result := by
  constructor
  · rintro ⟨v, ⟨read, hr, c, hc⟩, hv⟩
    obtain ⟨c', hc'⟩ := hclose.ending? read
    have ht := hc.symm.trans hc'
    cases ht
    exact ⟨v, hr, hv⟩
  · rintro ⟨v, hr, hv⟩
    exact ⟨v, ⟨t, hr, hclose.ending? t⟩, hv⟩

/-- A group that has just connected waits for the sessions that it opened. -/
theorem wait_sessions {g : DeliverGroup} {connectMs waitMs : Nat} {p q p' : Progress}
    (hg : g.streams = []) (h : (g.connect connectMs p).2 = .done (.ok ()) q)
    (hclose : ∀ x ∈ g.sessions p, x.2.closing.Prompt) (hp' : p'.Reaches (p'.clock + waitMs)) :
    FirstFailureWins (g.sessions p) (SessionEnds g.txId p') (p'.clock + waitMs)
      (.deliverTimeout .wait g.txId waitMs)
      ((g.connect connectMs p).1.wait waitMs p').2.result? := by
  have hperm := connect_streams_perm h
  rw [hg, List.nil_append] at hperm
  exact (wait_firstFailureWins (g.connect connectMs p).1 hp').rename hperm
    fun x hx t r => streamEnds_ofSession (hclose x hx) t r

theorem run_of_result? {α : Type} {run : Run α} {r : Except ClientError α}
    (h : run.result? = some r) : ∃ q, run = .done r q := by
  cases run with
  | done r' q =>
    cases h
    exact ⟨q, rfl⟩
  | stopped q => cases h

/-- A new group connects when all peers have connected in time, and one that has connected confirms
when all streams have reported the transaction as valid in time; it has then counted every peer.
Otherwise the result is the failure of a peer that failed earliest, or the expiry where none failed
in time. -/
theorem connect_then_wait (clients : List DeliverPeer) (signer : Signer)
    (channelId txId : String) (tlsCertHash : Option Bytes) {connectMs : Nat} {p : Progress}
    (hp : p.Reaches (p.clock + connectMs)) :
    let g := fresh clients signer channelId txId tlsCertHash
    FirstFailureWins (g.members p) (g.MemberConnects p) (p.clock + connectMs)
      (.deliverTimeout .connect txId connectMs) (g.connect connectMs p).2.result? ∧
    ((g.connect connectMs p).2.result? = some (.ok ()) →
      (∀ x ∈ g.sessions p, x.2.closing.Prompt) →
      ∀ (waitMs : Nat) (p' : Progress), p'.Reaches (p'.clock + waitMs) →
        let connected := (g.connect connectMs p).1
        FirstFailureWins (g.sessions p) (SessionEnds txId p') (p'.clock + waitMs)
          (.deliverTimeout .wait txId waitMs) (connected.wait waitMs p').2.result? ∧
        ((connected.wait waitMs p').2.result? = some (.ok ()) →
          (connected.wait waitMs p').1.confirmed = clients.length)) := by
  intro g
  refine ⟨connect_firstFailureWins g hp, fun hok hclose waitMs p' hp' => ?_⟩
  obtain ⟨q, hq⟩ := run_of_result? hok
  refine ⟨wait_sessions rfl hq hclose hp', fun hwait => ?_⟩
  obtain ⟨q', hq'⟩ := run_of_result? hwait
  have hlength := (connect_streams_perm hq).length_eq
  rw [List.length_append, List.length_map, length_sessions] at hlength
  rw [wait_confirmed hq', hlength]
  exact (Nat.zero_add _).trans (Nat.zero_add _)

end DeliverGroup

/-! ### One peer -/

/-- A signer that never fails. -/
def steadySigner : Signer where
  orgId := "Org1MSP"
  identity := [1]
  sign := fun _ => .ok [2]
  nonce := fun _ => .ok [3]

/-- The block that reports a transaction as valid. -/
def validBlock (txId : String) : FilteredBlock where
  channelId := "ch"
  number := 1
  filteredTransactions := [⟨txId, .endorserTransaction, .valid⟩]

/-- The peer that connects after two milliseconds and reports the transaction that was ordered
last two milliseconds after it is asked. -/
def steadyPeer : DeliverPeer where
  id := ⟨.deliver, 0, "peer0:7051"⟩
  session := fun _ => {
    opening := { delay := 1, outcome := .answered () }
    sending := { delay := 1, outcome := .answered () }
    receiving := [{ delay := 2, outcome := .answered fun tx => .filteredBlock (validBlock tx) }] }

def epoch : HeaderSource := { time := ⟨0, 0⟩, drawn := 0 }

/-- The group of one steady peer connects and confirms. -/
theorem connect_then_wait_steadyPeer :
    let g := DeliverGroup.fresh [steadyPeer] steadySigner "ch" "tx" none
    let p : Progress := { headers := epoch }
    let p' : Progress := { headers := epoch, clock := 5, lastTx := "tx" }
    p.Reaches 10 ∧ p'.Reaches 15 ∧ (g.connect 10 p).2.result? = some (.ok ()) ∧
      ((g.connect 10 p).1.wait 10 p').2.result? = some (.ok ()) ∧
      ((g.connect 10 p).1.wait 10 p').1.confirmed = 1 := by
  intro g p p'
  have hp : p.Reaches (p.clock + 10) := rfl
  have hp' : p'.Reaches (p'.clock + 10) := rfl
  obtain ⟨hconnect, hwait⟩ :=
    DeliverGroup.connect_then_wait [steadyPeer] steadySigner "ch" "tx" none hp
  have hok : (g.connect 10 p).2.result? = some (.ok ()) := by
    refine hconnect.succeeds_iff.2 fun m hm => ?_
    obtain rfl := List.mem_singleton.1 hm
    exact ⟨2, by decide, .accepted rfl rfl rfl rfl⟩
  have hclose : ∀ x ∈ g.sessions p, x.2.closing.Prompt := by
    intro x hx
    obtain rfl := List.mem_singleton.1 hx
    exact ⟨rfl, _, rfl⟩
  obtain ⟨hresult, hconfirmed⟩ := hwait hok hclose 10 p' hp'
  have hdone : ((g.connect 10 p).1.wait 10 p').2.result? = some (.ok ()) := by
    refine hresult.succeeds_iff.2 fun x hx => ?_
    obtain rfl := List.mem_singleton.1 hx
    exact ⟨7, by decide, .valid, .decided rfl (.valid rfl rfl), rfl⟩
  exact ⟨hp, hp', hok, hdone, hconfirmed hdone⟩

end LedgerClient
