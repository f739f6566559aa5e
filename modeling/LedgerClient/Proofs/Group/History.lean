import LedgerClient.Proofs.Group.Outcome
/-!
# Groups that are called again and again

`connect` and `wait` in any order, after any outcomes of the calls before.

* `Holds`: the group has a stream of the client at a place, which one of its calls
  opened.  `mem_streams_after_iff`: the streams of the group are these.
* `Reported`: the client at a place has reported the transaction as valid during one
  of the calls, on such a stream.
* `reported_iff_of_wait`: a wait that succeeds has heard all clients exactly if each of
  them had a stream in the group or had reported before.  A wait uses the streams up, so
  one that is repeated, or that no connect has come before, succeeds without them.
* `confirmed_after_le`: every connect that has not failed lets the group count each
  client once more.
-/

namespace LedgerClient

/-- A call on a group: its deadline, and the progress when it begins. -/
inductive GroupCall where
  | connect (milliseconds : Nat) (start : Progress)
  | wait (milliseconds : Nat) (start : Progress)

namespace DeliverGroup

def perform (g : DeliverGroup) : GroupCall → DeliverGroup × Run Unit
  | .connect milliseconds start => g.connect milliseconds start
  | .wait milliseconds start => g.wait milliseconds start

/-- The group after calls; the first call of the list came last. -/
def after (g : DeliverGroup) : List GroupCall → DeliverGroup
  | [] => g
  | call :: earlier => ((g.after earlier).perform call).1

def ConnectFails (g : DeliverGroup) (milliseconds : Nat) (p : Progress) : Prop :=
  (g.connect milliseconds p).2.failure?.isSome = true

instance (g : DeliverGroup) (milliseconds : Nat) (p : Progress) :
    Decidable (g.ConnectFails milliseconds p) :=
  inferInstanceAs (Decidable (_ = true))

/-- After the calls the group has a stream of the client at a place. -/
inductive Holds (g : DeliverGroup) (place : Nat) :
    List GroupCall → Stream DeliverResponse → Prop
  | opened {earlier : List GroupCall} {milliseconds t : Nat} {p : Progress} {node : NodeId}
      {session : Session DeliverResponse} :
      ((g.after earlier).sessions p)[place]? = some (node, session) →
      (g.after earlier).Connects p place session t (.ok ()) →
      t < p.before (p.clock + milliseconds) → ¬(g.after earlier).ConnectFails milliseconds p →
      Holds g place (.connect milliseconds p :: earlier) (.ofSession node session)
  | kept {earlier : List GroupCall} {milliseconds : Nat} {p : Progress}
      {s : Stream DeliverResponse} : Holds g place earlier s →
      ¬(g.after earlier).ConnectFails milliseconds p →
      Holds g place (.connect milliseconds p :: earlier) s

/-- The client at a place has reported the transaction as valid during one of the calls. -/
inductive Reported (g : DeliverGroup) (place : Nat) : List GroupCall → Prop
  | during {earlier : List GroupCall} {milliseconds t : Nat} {p : Progress}
      {s : Stream DeliverResponse} : Holds g place earlier s →
      s.Reports g.txId p.lastTx p.clock t .valid →
      t < ((g.after earlier).waiting milliseconds p).group.horizon →
      Reported g place (.wait milliseconds p :: earlier)
  | before {earlier : List GroupCall} {call : GroupCall} : Reported g place earlier →
      Reported g place (call :: earlier)

/-- A connect has succeeded, and since then no connect has failed and no wait was made. -/
inductive Ready (g : DeliverGroup) : List GroupCall → Prop
  | connected {earlier : List GroupCall} {milliseconds : Nat} {p q : Progress} :
      ((g.after earlier).connect milliseconds p).2 = .done (.ok ()) q →
      Ready g (.connect milliseconds p :: earlier)
  | kept {earlier : List GroupCall} {milliseconds : Nat} {p : Progress} : Ready g earlier →
      ¬(g.after earlier).ConnectFails milliseconds p →
      Ready g (.connect milliseconds p :: earlier)

/-- How many of the calls are connects that did not fail. -/
def connects (g : DeliverGroup) : List GroupCall → Nat
  | [] => 0
  | .wait _ _ :: earlier => g.connects earlier
  | .connect milliseconds p :: earlier =>
    g.connects earlier + if (g.after earlier).ConnectFails milliseconds p then 0 else 1

/-! ## One call -/

variable {g : DeliverGroup} {p q : Progress} {milliseconds : Nat}

theorem connect_streams_of_fails (h : g.ConnectFails milliseconds p) :
    (g.connect milliseconds p).1.streams = [] := by
  obtain ⟨e, he⟩ := Option.isSome_iff_exists.1 h
  obtain ⟨q, hq⟩ := Run.done_error_of_failure? he
  have hrun : (Client.awaitFan (g.connecting milliseconds p)).run p = .done (.error e) q :=
    Run.map_done_error.1 ((connect_run g milliseconds p).symm.trans hq)
  rw [connect]
  simp only [hrun]

theorem connect_streams_of_not_fails (h : ¬g.ConnectFails milliseconds p) :
    (g.connect milliseconds p).1.streams =
      g.streams ++ (g.connecting milliseconds p).group.results := by
  rw [ConnectFails, connect_run] at h
  rw [connect]
  cases hrun : (Client.awaitFan (g.connecting milliseconds p)).run p with
  | done r q =>
    cases r with
    | ok streams => rfl
    | error e =>
      rw [show Client.awaitFan (g.connecting milliseconds p) p = _ from hrun] at h
      exact absurd rfl h
  | stopped q => rfl

theorem connecting_ending_of_not_fails (h : ¬g.ConnectFails milliseconds p) (t : Nat)
    (e : ClientError) : (g.connecting milliseconds p).group.ending ≠ some (t, some e) := by
  intro hend
  rw [ConnectFails, connect_run, Client.awaitFan_apply, hend] at h
  exact h rfl

/-- The streams that a connect opens, if it does not fail: those of the peers that have connected
by its end. -/
theorem mem_connecting_results_iff (h : ¬g.ConnectFails milliseconds p)
    {s : Stream DeliverResponse} :
    s ∈ (g.connecting milliseconds p).group.results ↔
      ∃ place node session, (g.sessions p)[place]? = some (node, session) ∧
        (∃ t < p.before (p.clock + milliseconds), g.Connects p place session t (.ok ())) ∧
        s = .ofSession node session := by
  have hcompletions : (g.connecting milliseconds p).group.completions =
      Task.completions (p.before (p.clock + milliseconds)) (g.connectTasks p) :=
    Task.race_completions_of_not_failed (connecting_ending_of_not_fails h)
  rw [GroupEnd.results, hcompletions, Task.mem_results_completions, connectTasks_eq]
  constructor
  · rintro ⟨_, hm, t, ht, he⟩
    obtain ⟨⟨⟨node, session⟩, place⟩, hmember, rfl⟩ := List.mem_map.1 hm
    have hs := List.mem_zipIdx_iff_getElem?.1 hmember
    exact ⟨place, node, session, hs, ⟨t, ht, (connects_iff hs).2 ⟨_, he, rfl⟩⟩,
      connectTask_stream he⟩
  · rintro ⟨place, node, session, hs, ⟨t, ht, hconnects⟩, rfl⟩
    obtain ⟨r, he, hr⟩ := (connects_iff hs).1 hconnects
    obtain ⟨s, rfl⟩ := map_unit_eq_ok.1 hr
    refine ⟨_, List.mem_map_of_mem (List.mk_mem_zipIdx_iff_getElem?.2 hs), t, ht, ?_⟩
    rw [connectTask_stream he] at he
    exact he

/-- A connect that succeeds has connected every peer. -/
theorem connects_of_connect (h : (g.connect milliseconds p).2 = .done (.ok ()) q) {place : Nat}
    (hplace : place < g.clients.length) :
    ∃ node session, (g.sessions p)[place]? = some (node, session) ∧
      ∃ t < p.before (p.clock + milliseconds), g.Connects p place session t (.ok ()) := by
  rw [← length_sessions g p] at hplace
  have hs := List.getElem?_eq_getElem hplace
  obtain ⟨t, -, ht, hconnects⟩ :=
    (allConnect_of_connect h).all _ (List.mk_mem_zipIdx_iff_getElem?.2 hs)
  exact ⟨_, _, hs, t, ht, hconnects⟩

theorem not_fails_of_connect (h : (g.connect milliseconds p).2 = .done (.ok ()) q) :
    ¬g.ConnectFails milliseconds p := by
  rw [ConnectFails, h]
  exact nofun

/-- A wait that succeeds has listened until every stream has reported. -/
theorem waiting_horizon_of_wait (h : (g.wait milliseconds p).2 = .done (.ok ()) q)
    {s : Stream DeliverResponse} (hs : s ∈ g.streams) :
    ∃ t < (g.waiting milliseconds p).group.horizon,
      s.Reports g.txId p.lastTx p.clock t .valid := by
  obtain ⟨instant, hend⟩ := wait_done_ok h
  obtain ⟨t, ht, hr⟩ := allReport_of_wait h s hs
  refine ⟨t, ?_, hr⟩
  obtain ⟨r, he, -⟩ := (streamEnds_iff s t _).1 (streamEnds_ok.2 hr)
  have hlast : t ≤ instant := by
    rw [(Task.race_ending_success_iff.1 hend).2]
    exact Task.ending_le_lastInstant (List.mem_map_of_mem hs) he ht
  exact (Nat.lt_succ_of_le hlast).trans_eq (Task.race_horizon hend).symm

/-! ## All calls -/

/-- The calls change the streams and the count of a group only. -/
theorem after_eq (g : DeliverGroup) (calls : List GroupCall) :
    g.after calls = { g with
      streams := (g.after calls).streams
      confirmed := (g.after calls).confirmed } := by
  induction calls with
  | nil => rfl
  | cons call earlier ih =>
    cases call with
    | connect milliseconds p =>
      rw [after, perform, connect]
      dsimp only
      rw [ih]
    | wait milliseconds p =>
      rw [after, perform, wait]
      dsimp only
      rw [ih]

theorem after_clients (g : DeliverGroup) (calls : List GroupCall) :
    (g.after calls).clients = g.clients := by
  rw [after_eq]

theorem after_txId (g : DeliverGroup) (calls : List GroupCall) :
    (g.after calls).txId = g.txId := by
  rw [after_eq]

theorem mem_streams_after_iff (hg : g.streams = []) {calls : List GroupCall}
    {s : Stream DeliverResponse} :
    s ∈ (g.after calls).streams ↔ ∃ place, g.Holds place calls s := by
  induction calls with
  | nil =>
    rw [after, hg]
    exact ⟨fun h => (nomatch h), fun ⟨_, h⟩ => (nomatch h)⟩
  | cons call earlier ih =>
    cases call with
    | wait milliseconds p => exact ⟨fun h => (nomatch h), fun ⟨_, h⟩ => (nomatch h)⟩
    | connect milliseconds p =>
      rw [after, perform]
      by_cases hfails : (g.after earlier).ConnectFails milliseconds p
      · rw [connect_streams_of_fails hfails]
        refine ⟨fun h => (nomatch h), fun ⟨place, h⟩ => ?_⟩
        cases h with
        | opened _ _ _ hnot => exact absurd hfails hnot
        | kept _ hnot => exact absurd hfails hnot
      · rw [connect_streams_of_not_fails hfails, List.mem_append, ih,
          mem_connecting_results_iff hfails]
        constructor
        · rintro (⟨place, h⟩ | ⟨place, node, session, hs, ⟨t, ht, hconnects⟩, rfl⟩)
          · exact ⟨place, .kept h hfails⟩
          · exact ⟨place, .opened hs hconnects ht hfails⟩
        · rintro ⟨place, h⟩
          cases h with
          | opened hs hconnects ht _ => exact .inr ⟨place, _, _, hs, ⟨_, ht, hconnects⟩, rfl⟩
          | kept h _ => exact .inl ⟨place, h⟩

/-- A group that is ready has a stream of every client. -/
theorem Ready.holds {calls : List GroupCall} (h : g.Ready calls) {place : Nat}
    (hplace : place < g.clients.length) : ∃ s, g.Holds place calls s := by
  induction h with
  | @connected earlier milliseconds p q hok =>
    rw [← after_clients g earlier] at hplace
    obtain ⟨node, session, hs, t, ht, hconnects⟩ := connects_of_connect hok hplace
    exact ⟨_, .opened hs hconnects ht (not_fails_of_connect hok)⟩
  | kept _ hfails ih =>
    obtain ⟨s, hs⟩ := ih
    exact ⟨s, .kept hs hfails⟩

/-- After a wait that succeeds, a client has reported if it had a stream in the group or had
reported before, and not otherwise. -/
theorem reported_iff_of_wait (hg : g.streams = []) {calls : List GroupCall}
    (h : ((g.after calls).wait milliseconds p).2 = .done (.ok ()) q) {place : Nat} :
    g.Reported place (.wait milliseconds p :: calls) ↔
      (∃ s, g.Holds place calls s) ∨ g.Reported place calls := by
  constructor
  · intro hr
    cases hr with
    | during hs _ _ => exact .inl ⟨_, hs⟩
    | before hr => exact .inr hr
  · rintro (⟨s, hs⟩ | hr)
    · obtain ⟨t, ht, hr⟩ := waiting_horizon_of_wait h ((mem_streams_after_iff hg).2 ⟨place, hs⟩)
      rw [after_txId] at hr
      exact .during hs hr ht
    · exact .before hr

/-- A call raises the sum of confirmations and open streams by one for each client at most, and
only if it is a connect that does not fail. -/
theorem perform_count_le (g : DeliverGroup) (call : GroupCall) :
    (g.perform call).1.confirmed + (g.perform call).1.streams.length ≤
      g.confirmed + g.streams.length + g.connects [call] * g.clients.length := by
  cases call with
  | connect milliseconds p =>
    have hcount : g.connects [.connect milliseconds p] =
        0 + if g.ConnectFails milliseconds p then 0 else 1 := rfl
    have hconfirmed : (g.connect milliseconds p).1.confirmed = g.confirmed := rfl
    rw [perform, hconfirmed, hcount, Nat.zero_add]
    by_cases hfails : g.ConnectFails milliseconds p
    · rw [connect_streams_of_fails hfails, if_pos hfails]
      simp only [List.length_nil]
      omega
    · have hresults : (g.connecting milliseconds p).group.results.length ≤ g.clients.length := by
        refine (Task.length_race_results_le _ _ _).trans_eq ?_
        rw [connectTasks_eq, List.length_map, members, List.length_zipIdx, length_sessions]
      rw [connect_streams_of_not_fails hfails, if_neg hfails, List.length_append, Nat.one_mul]
      omega
  | wait milliseconds p =>
    have hresults : (g.waiting milliseconds p).group.results.length ≤ g.streams.length := by
      refine (Task.length_race_results_le _ _ _).trans_eq ?_
      rw [List.length_map]
    have hconfirmed : (g.wait milliseconds p).1.confirmed =
        g.confirmed + (g.waiting milliseconds p).group.results.length := rfl
    rw [perform, hconfirmed, show (g.wait milliseconds p).1.streams = [] from rfl]
    simp only [List.length_nil]
    omega

/-- Every connect that has not failed lets the group count each client once more. -/
theorem confirmed_after_le (calls : List GroupCall) :
    (g.after calls).confirmed + (g.after calls).streams.length ≤
      g.confirmed + g.streams.length + g.connects calls * g.clients.length := by
  induction calls with
  | nil => exact Nat.le_add_right _ _
  | cons call earlier ih =>
    have hstep := perform_count_le (g.after earlier) call
    have hcount : g.connects (call :: earlier) =
        g.connects earlier + (g.after earlier).connects [call] := by
      cases call with
      | connect milliseconds p => exact congrArg (g.connects earlier + ·) (Nat.zero_add _).symm
      | wait milliseconds p => rfl
    rw [after_clients] at hstep
    rw [after, hcount, Nat.add_mul]
    omega

/-! ## New groups -/

/-- What a wait that succeeds says about the clients of a group, whatever was called before.  Where
a connect has succeeded since the last wait or failed connect, every client has reported the
transaction as valid.  In general this is so exactly if each client had a stream in the group or
had reported earlier.  The group counts each client once for every connect that has not failed, at
most. -/
theorem heard_after_calls (clients : List DeliverPeer) (signer : Signer)
    (channelId txId : String) (tlsCertHash : Option Bytes) (calls : List GroupCall) :
    let g := fresh clients signer channelId txId tlsCertHash
    (∀ (milliseconds : Nat) (p q : Progress),
      ((g.after calls).wait milliseconds p).2 = .done (.ok ()) q →
        (g.Ready calls →
          ∀ place < clients.length, g.Reported place (.wait milliseconds p :: calls)) ∧
        ((∀ place < clients.length, g.Reported place (.wait milliseconds p :: calls)) ↔
          ∀ place < clients.length, (∃ s, g.Holds place calls s) ∨ g.Reported place calls)) ∧
    (g.after calls).confirmed ≤ g.connects calls * clients.length := by
  intro g
  refine ⟨fun milliseconds p q h => ?_, ?_⟩
  · have hiff : ∀ place, g.Reported place (.wait milliseconds p :: calls) ↔
        (∃ s, g.Holds place calls s) ∨ g.Reported place calls :=
      fun place => reported_iff_of_wait rfl h
    refine ⟨fun hready place hplace => ?_, ?_⟩
    · exact (hiff place).2 (.inl (hready.holds hplace))
    · exact forall₂_congr fun place _ => hiff place
  · have hle := confirmed_after_le (g := g) calls
    have hnew : g.confirmed + g.streams.length = 0 := rfl
    rw [hnew, Nat.zero_add] at hle
    exact (Nat.le_add_right _ _).trans hle

end DeliverGroup

/-- A new group of one peer. -/
def groupOf (peer : DeliverPeer) : DeliverGroup :=
  .fresh [peer] steadySigner "ch" "tx" none

/-- A connect of a new group at the beginning of a run. -/
def firstConnect : GroupCall := .connect 10 { headers := epoch }

/-- The progress when the group of a peer has connected and its transaction has been ordered. -/
def afterOrdering (peer : DeliverPeer) : Progress :=
  { ((groupOf peer).perform firstConnect).2.progress with lastTx := "tx" }

/-- The group of one steady peer is ready once it has connected, and a wait then hears the peer. -/
theorem heard_after_connect_steadyPeer :
    let wait := GroupCall.wait 10 (afterOrdering steadyPeer)
    (groupOf steadyPeer).Ready [firstConnect] ∧
      (((groupOf steadyPeer).after [firstConnect]).perform wait).2.result? = some (.ok ()) ∧
      (groupOf steadyPeer).Reported 0 [wait, firstConnect] ∧
      ((groupOf steadyPeer).after [wait, firstConnect]).confirmed ≤ 1 := by
  have hconnect : ((groupOf steadyPeer).perform firstConnect).2.result? = some (.ok ()) := by
    decide +kernel
  have hwait : (((groupOf steadyPeer).after [firstConnect]).wait 10
      (afterOrdering steadyPeer)).2.result? = some (.ok ()) := by
    decide +kernel
  have hcount : (groupOf steadyPeer).connects
      [.wait 10 (afterOrdering steadyPeer), firstConnect] = 1 := by
    decide +kernel
  obtain ⟨q, hq⟩ := DeliverGroup.run_of_result? hconnect
  obtain ⟨q', hq'⟩ := DeliverGroup.run_of_result? hwait
  have hready : (groupOf steadyPeer).Ready [firstConnect] := .connected hq
  obtain ⟨hheard, -⟩ :=
    DeliverGroup.heard_after_calls [steadyPeer] steadySigner "ch" "tx" none [firstConnect]
  obtain ⟨-, hconfirmed⟩ := DeliverGroup.heard_after_calls [steadyPeer] steadySigner "ch" "tx" none
    [.wait 10 (afterOrdering steadyPeer), firstConnect]
  refine ⟨hready, hwait, (hheard 10 _ q' hq').1 hready 0 Nat.one_pos, ?_⟩
  exact hconfirmed.trans (Nat.le_of_eq (congrArg (· * 1) hcount))

/-- A peer that opens its stream and then says nothing. -/
def mutePeer : DeliverPeer where
  id := ⟨.deliver, 0, "peer0:7051"⟩
  session := fun _ => {}

/-- A wait succeeds without any peer before the first connect, when nothing has been asked, and
again when it is repeated after it has timed out.  A group of one peer that has connected twice
counts two confirmations. -/
theorem confirms_without_peers :
    (let wait := GroupCall.wait 10 { headers := epoch }
     ((groupOf steadyPeer).perform wait).2.result? = some (.ok ()) ∧
       ((groupOf steadyPeer).perform wait).2.progress.asked = [] ∧
       ¬(groupOf steadyPeer).Reported 0 [wait]) ∧
    (let wait := GroupCall.wait 10 (afterOrdering mutePeer)
     let timedOut := ((groupOf mutePeer).after [firstConnect]).perform wait
     let again := GroupCall.wait 10 timedOut.2.progress
     timedOut.2.failure? = some (.deliverTimeout .wait "tx" 10) ∧
       (timedOut.1.perform again).2.result? = some (.ok ()) ∧
       ¬(groupOf mutePeer).Reported 0 [again, wait, firstConnect]) ∧
    (let again := GroupCall.connect 10 (afterOrdering steadyPeer)
     let connected := ((groupOf steadyPeer).after [firstConnect]).perform again
     let waited := connected.1.wait 10 connected.2.progress
     waited.2.result? = some (.ok ()) ∧ waited.1.confirmed = 2) := by
  refine ⟨⟨by decide +kernel, by decide +kernel, fun h => ?_⟩,
    ⟨by decide +kernel, by decide +kernel, fun h => ?_⟩, by decide +kernel, by decide +kernel⟩
  · cases h with
    | during hs _ _ => cases hs
    | before h => cases h
  · -- No wait can have heard the peer: the second one has no stream, and on the stream of the
    -- first one there is no message.
    cases h with
    | during hs _ _ => cases hs
    | before h =>
      cases h with
      | during hs hr _ =>
        cases hs with
        | opened hsession _ _ _ =>
          cases hsession
          obtain ⟨read, hreads, -⟩ := hr
          cases hreads
        | kept hs _ => cases hs
      | before h =>
        cases h with
        | before h => cases h

end LedgerClient
