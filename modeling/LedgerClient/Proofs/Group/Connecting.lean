import LedgerClient.Client.DeliverGroup
import LedgerClient.Proofs.Group.FirstFailure
/-!
# Connecting a group

When and how a peer of a group has connected.

* `Connects`: a peer opens its stream and accepts the seek request, or one of the
  two fails, or the request cannot be made.  `connects_iff`: the task of the peer
  ends in this way.
* `connect_firstFailureWins`: what `connect` gives.  `connect_done_error`: every
  failure is that of a peer or the expiry of the deadline.
* `connect_streams_perm`: a group that has connected holds a stream to every peer.
* `connected_asksOnly`, `connect_keeps`: connecting opens streams and sends seek
  requests, and leaves all else alone.
-/

namespace LedgerClient

/-! ## Seek requests -/

theorem mem_openingsOf {start : Nat} {sessions : List (NodeId × Session DeliverResponse)}
    {t place : Nat} :
    ⟨t, place⟩ ∈ openingsOf start sessions ↔
      ∃ node session, sessions[place]? = some (node, session) ∧
        session.opening.outcome = .answered () ∧ t = start + session.opening.delay := by
  rw [openingsOf, Task.mem_sortByInstant, List.mem_filterMap]
  constructor
  · rintro ⟨⟨⟨node, session⟩, i⟩, hm, h⟩
    rw [List.mem_zipIdx_iff_getElem?] at hm
    dsimp only at h
    split at h
    · rename_i instant he
      cases h
      exact ⟨node, session, hm, Reply.ending?_eq_ok.1 he⟩
    · cases h
  · rintro ⟨node, session, hm, ho, rfl⟩
    refine ⟨((node, session), place), List.mem_zipIdx_iff_getElem?.2 hm, ?_⟩
    dsimp only
    rw [Reply.ending?_eq_ok.2 ⟨ho, rfl⟩]

theorem requestSeeks_map_opening (seek : Issuing Envelope) (headers : HeaderSource)
    (openings : List Opening) :
    (requestSeeks seek headers openings).map (·.opening) = openings := by
  induction openings generalizing headers with
  | nil => rfl
  | cons opening rest ih => rw [requestSeeks, List.map_cons, ih]

namespace DeliverGroup

variable {g : DeliverGroup} {p : Progress} {place : Nat} {node : NodeId}
  {session : Session DeliverResponse}

/-- The seek request for the session at a place, made when its stream has opened. -/
def seekAt (g : DeliverGroup) (p : Progress) (place : Nat) : Option SeekRequest :=
  (g.requests p).find? fun r => r.opening.place = place

theorem seekAt_opening {r : SeekRequest} (hs : (g.sessions p)[place]? = some (node, session))
    (h : g.seekAt p place = some r) :
    session.opening.outcome = .answered () ∧
      r.opening.instant = p.clock + session.opening.delay := by
  have hplace : r.opening.place = place := by simpa using List.find?_some h
  have hmem : r.opening ∈ openingsOf p.clock (g.sessions p) := by
    rw [← requestSeeks_map_opening g.seek p.headers (openingsOf p.clock (g.sessions p))]
    exact List.mem_map_of_mem (List.mem_of_find?_eq_some h)
  obtain ⟨node', session', hs', ho, ht⟩ := mem_openingsOf.1 hmem
  rw [hplace, hs] at hs'
  cases hs'
  exact ⟨ho, ht⟩

/-! ## Peers that connect -/

/-- How and when the peer of a session connects, if it does: the stream opens, the seek request is
made, and the peer accepts it. -/
inductive Connects (g : DeliverGroup) (p : Progress) (place : Nat)
    (session : Session DeliverResponse) : Nat → Except ClientError Unit → Prop
  | refused {e : ClientError} : session.opening.outcome = .failed e →
      Connects g p place session (p.clock + session.opening.delay) (.error e)
  | unsigned {r : SeekRequest} {e : ClientError} : session.opening.outcome = .answered () →
      g.seekAt p place = some r → r.envelope = .error e →
      Connects g p place session (p.clock + session.opening.delay) (.error e)
  | rejected {r : SeekRequest} {envelope : Envelope} {e : ClientError} :
      session.opening.outcome = .answered () → g.seekAt p place = some r →
      r.envelope = .ok envelope → session.sending.outcome = .failed e →
      Connects g p place session (p.clock + session.opening.delay + session.sending.delay)
        (.error e)
  | accepted {r : SeekRequest} {envelope : Envelope} :
      session.opening.outcome = .answered () → g.seekAt p place = some r →
      r.envelope = .ok envelope → session.sending.outcome = .answered () →
      Connects g p place session (p.clock + session.opening.delay + session.sending.delay) (.ok ())

theorem connectTask_of_none (h : g.seekAt p place = none) :
    (connectTask p.clock (g.requests p) place node session).ending =
      match session.opening.ending? p.clock with
      | some (instant, .error e) => some (instant, .error e)
      | _ => none := by
  rw [seekAt] at h
  rw [connectTask]
  split
  · rfl
  · rename_i hfind
    rw [h] at hfind
    cases hfind
  · rename_i hfind
    rw [h] at hfind
    cases hfind

theorem connectTask_of_error {r : SeekRequest} {e : ClientError} (h : g.seekAt p place = some r)
    (he : r.envelope = .error e) :
    (connectTask p.clock (g.requests p) place node session).ending =
      some (r.opening.instant, .error e) := by
  obtain ⟨⟨instant, i⟩, envelope, headers⟩ := r
  subst he
  rw [seekAt] at h
  rw [connectTask, h]

theorem connectTask_of_ok {r : SeekRequest} {envelope : Envelope} (h : g.seekAt p place = some r)
    (he : r.envelope = .ok envelope) :
    (connectTask p.clock (g.requests p) place node session).ending =
      (session.sending.ending? r.opening.instant).map fun (instant, result) =>
        (instant, result.map fun _ => .ofSession node session) := by
  obtain ⟨⟨instant, i⟩, envelope', headers⟩ := r
  subst he
  rw [seekAt] at h
  rw [connectTask, h]

/-- The task of a peer ends as the peer connects. -/
theorem connects_iff (hs : (g.sessions p)[place]? = some (node, session)) {t : Nat}
    {result : Except ClientError Unit} :
    g.Connects p place session t result ↔
      ∃ r', (connectTask p.clock (g.requests p) place node session).ending = some (t, r') ∧
        r'.map (fun _ => ()) = result := by
  constructor
  · intro h
    cases h with
    | refused ho =>
      have hnone : g.seekAt p place = none := by
        rw [← Option.not_isSome_iff_eq_none, Option.isSome_iff_exists]
        rintro ⟨r, hr⟩
        rw [(seekAt_opening hs hr).1] at ho
        cases ho
      rw [connectTask_of_none hnone, Reply.ending?_eq_error.2 ⟨ho, rfl⟩]
      exact ⟨_, rfl, rfl⟩
    | unsigned ho hr he =>
      rw [connectTask_of_error hr he, (seekAt_opening hs hr).2]
      exact ⟨_, rfl, rfl⟩
    | rejected ho hr he hsend =>
      rw [connectTask_of_ok hr he, (seekAt_opening hs hr).2,
        Reply.ending?_eq_error.2 ⟨hsend, rfl⟩]
      exact ⟨_, rfl, rfl⟩
    | accepted ho hr he hsend =>
      rw [connectTask_of_ok hr he, (seekAt_opening hs hr).2, Reply.ending?_eq_ok.2 ⟨hsend, rfl⟩]
      exact ⟨_, rfl, rfl⟩
  · rintro ⟨r', hend, rfl⟩
    cases hr : g.seekAt p place with
    | none =>
      rw [connectTask_of_none hr] at hend
      split at hend
      · rename_i instant e he
        cases hend
        obtain ⟨ho, rfl⟩ := Reply.ending?_eq_error.1 he
        exact .refused ho
      · cases hend
    | some r =>
      obtain ⟨ho, hinstant⟩ := seekAt_opening hs hr
      cases he : r.envelope with
      | error e =>
        rw [connectTask_of_error hr he, hinstant] at hend
        cases hend
        exact .unsigned ho hr he
      | ok envelope =>
        rw [connectTask_of_ok hr he, hinstant] at hend
        obtain ⟨⟨t', sent⟩, hsend, heq⟩ := Option.map_eq_some_iff.1 hend
        cases heq
        obtain ⟨rfl, ⟨_, houtcome, rfl⟩ | ⟨e, houtcome, rfl⟩⟩ := Reply.ending?_eq_some.1 hsend
        · exact .accepted ho hr he houtcome
        · exact .rejected ho hr he houtcome

/-- A peer that has connected leaves the stream of its session. -/
theorem connectTask_stream {t : Nat} {s : Stream DeliverResponse}
    (h : (connectTask p.clock (g.requests p) place node session).ending = some (t, .ok s)) :
    s = .ofSession node session := by
  cases hr : g.seekAt p place with
  | none =>
    rw [connectTask_of_none hr] at h
    split at h
    · cases h
    · cases h
  | some r =>
    cases he : r.envelope with
    | error e =>
      rw [connectTask_of_error hr he] at h
      cases h
    | ok envelope =>
      rw [connectTask_of_ok hr he] at h
      obtain ⟨⟨t', sent⟩, -, heq⟩ := Option.map_eq_some_iff.1 h
      cases sent with
      | ok _ => cases heq; rfl
      | error e => cases heq

/-! ## The outcome -/

/-- The sessions of a group with their places. -/
def members (g : DeliverGroup) (p : Progress) : List ((NodeId × Session DeliverResponse) × Nat) :=
  (g.sessions p).zipIdx

/-- How and when a member connects. -/
def MemberConnects (g : DeliverGroup) (p : Progress)
    (m : (NodeId × Session DeliverResponse) × Nat) : Nat → Except ClientError Unit → Prop :=
  g.Connects p m.2 m.1.2

theorem memberConnects_iff {m : (NodeId × Session DeliverResponse) × Nat} (hm : m ∈ g.members p)
    (t : Nat) (result : Except ClientError Unit) :
    g.MemberConnects p m t result ↔
      ∃ r', (connectTask p.clock (g.requests p) m.2 m.1.1 m.1.2).ending = some (t, r') ∧
        r'.map (fun _ => ()) = result :=
  connects_iff (List.mem_zipIdx_iff_getElem?.1 hm)

theorem connectTasks_eq (g : DeliverGroup) (p : Progress) :
    g.connectTasks p =
      (g.members p).map fun m => connectTask p.clock (g.requests p) m.2 m.1.1 m.1.2 := rfl

theorem connect_run (g : DeliverGroup) (milliseconds : Nat) (p : Progress) :
    (g.connect milliseconds p).2 =
      (Client.awaitFan (g.connecting milliseconds p) p).map fun _ => () := rfl

/-- What `connect` gives: success when every peer has connected in time, or else the failure of a
peer that failed earliest, or else the expiry. -/
theorem connect_firstFailureWins (g : DeliverGroup) {milliseconds : Nat} {p : Progress}
    (hreach : p.Reaches (p.clock + milliseconds)) :
    FirstFailureWins (g.members p) (g.MemberConnects p) (p.clock + milliseconds)
      (.deliverTimeout .connect g.txId milliseconds) (g.connect milliseconds p).2.result? := by
  rw [connect_run]
  have hgroup : (g.connecting milliseconds p).group =
      Task.race p.clock (p.clock + milliseconds) (g.connectTasks p) :=
    congrArg (Task.race p.clock · (g.connectTasks p)) hreach
  exact firstFailureWins_of_race (fun m hm => memberConnects_iff hm) hgroup hreach

/-- No peer fails before the deadline, and not all of them have connected by then. -/
def ConnectExpires (g : DeliverGroup) (milliseconds : Nat) (p : Progress) : Prop :=
  (∀ m ∈ g.members p, ∀ t < p.clock + milliseconds, ∀ e, ¬g.MemberConnects p m t (.error e)) ∧
    ¬∀ m ∈ g.members p, ∃ t < p.clock + milliseconds, g.MemberConnects p m t (.ok ())

/-- Every failure of `connect` is that of a peer or the expiry of the deadline. -/
theorem connect_done_error {milliseconds : Nat} {p q : Progress} {e : ClientError}
    (h : (g.connect milliseconds p).2 = .done (.error e) q) :
    (∃ m ∈ g.members p, ∃ t < p.clock + milliseconds, g.MemberConnects p m t (.error e)) ∨
      (e = .deliverTimeout .connect g.txId milliseconds ∧ g.ConnectExpires milliseconds p) := by
  have hrun := Run.map_done_error.1 ((connect_run g milliseconds p).symm.trans h)
  exact failure_of_race (fun m hm => memberConnects_iff hm) rfl hrun

/-- A group that has connected: the instant at which its last peer did, and the streams. -/
theorem connect_done_ok {milliseconds : Nat} {p q : Progress}
    (h : (g.connect milliseconds p).2 = .done (.ok ()) q) :
    ∃ instant, (g.connecting milliseconds p).group.ending = some (instant, none) ∧
      q = Client.fanned (g.connecting milliseconds p) p instant ∧
      (g.connect milliseconds p).1.streams =
        g.streams ++ (g.connecting milliseconds p).group.results := by
  rw [connect_run] at h
  obtain ⟨streams, hrun, -⟩ := Run.map_done_ok.1 h
  obtain ⟨instant, hend, -, hq⟩ := Client.awaitFan_done_ok.1 hrun
  refine ⟨instant, hend, hq, ?_⟩
  have hrun' : (Client.awaitFan (g.connecting milliseconds p)).run p = .done (.ok streams) q := hrun
  rw [connect]
  simp only [hrun']

theorem MemberConnects.start_le {m : (NodeId × Session DeliverResponse) × Nat} {t : Nat}
    {result : Except ClientError Unit} (h : g.MemberConnects p m t result) : p.clock ≤ t := by
  cases h with
  | refused => exact Nat.le_add_right _ _
  | unsigned => exact Nat.le_add_right _ _
  | rejected => exact (Nat.le_add_right _ _).trans (Nat.le_add_right _ _)
  | accepted => exact (Nat.le_add_right _ _).trans (Nat.le_add_right _ _)

/-- A peer that has connected has not failed. -/
theorem MemberConnects.not_error {m : (NodeId × Session DeliverResponse) × Nat} {t t' : Nat}
    {e : ClientError} (hm : m ∈ g.members p) (h : g.MemberConnects p m t (.ok ())) :
    ¬g.MemberConnects p m t' (.error e) := by
  intro herror
  obtain ⟨r, hend, hr⟩ := (memberConnects_iff hm _ _).1 h
  obtain ⟨r', hend', hr'⟩ := (memberConnects_iff hm _ _).1 herror
  rw [hend] at hend'
  cases hend'
  rw [hr] at hr'
  cases hr'

/-- A race of the peers succeeds when all of them connect before the deadline. -/
theorem connecting_ending_iff {milliseconds t : Nat} :
    (g.connecting milliseconds p).group.ending = some (t, none) ↔
      Task.AllBy p.clock (g.members p)
        (fun m t => t < p.before (p.clock + milliseconds) ∧ g.MemberConnects p m t (.ok ())) t := by
  refine Task.race_ending_success_iff.trans ?_
  rw [connectTasks_eq]
  refine Task.lastInstant_iff_allBy (fun m hm t => ?_) fun m _ t h => h.2.start_le
  refine and_congr_right fun _ => (memberConnects_iff hm t _).trans ?_
  constructor
  · rintro ⟨r', he, hr⟩
    obtain ⟨s, rfl⟩ := map_unit_eq_ok.1 hr
    exact ⟨s, he⟩
  · rintro ⟨s, he⟩
    exact ⟨_, he, rfl⟩

/-- A group has connected when every peer has. -/
theorem allConnect_of_connect {milliseconds : Nat} {p q : Progress}
    (h : (g.connect milliseconds p).2 = .done (.ok ()) q) :
    Task.AllBy p.clock (g.members p)
      (fun m t => t < p.before (p.clock + milliseconds) ∧ g.MemberConnects p m t (.ok ()))
      q.clock := by
  obtain ⟨instant, hend, rfl, -⟩ := connect_done_ok h
  exact connecting_ending_iff.1 hend

/-- Where every peer connects in time, the group connects. -/
theorem connect_of_allConnect {milliseconds instant : Nat} {p : Progress}
    (h : Task.AllBy p.clock (g.members p)
      (fun m t => t < p.before (p.clock + milliseconds) ∧ g.MemberConnects p m t (.ok ()))
      instant) :
    ∃ q, (g.connect milliseconds p).2 = .done (.ok ()) q ∧ q.clock = instant :=
  ⟨_, Run.map_done_ok.2 ⟨_, Client.awaitFan_done_ok.2
    ⟨instant, connecting_ending_iff.2 h, rfl, rfl⟩, rfl⟩, rfl⟩

/-- The streams that a group opens: one for each session, in the order in which they connect. -/
theorem connect_streams_perm {milliseconds : Nat} {p q : Progress}
    (h : (g.connect milliseconds p).2 = .done (.ok ()) q) :
    (g.connect milliseconds p).1.streams.Perm
      (g.streams ++ (g.sessions p).map fun x => .ofSession x.1 x.2) := by
  obtain ⟨instant, hend, -, hstreams⟩ := connect_done_ok h
  have hall := (Task.race_ending_success_iff.1 hend).1
  have hvalue : ∀ m ∈ g.members p,
      (Task.value? ∘ fun m : (NodeId × Session DeliverResponse) × Nat =>
        connectTask p.clock (g.requests p) m.2 m.1.1 m.1.2) m =
      some (Stream.ofSession m.1.1 m.1.2) := by
    intro m hm
    obtain ⟨t, s, he, -⟩ := hall _ (List.mem_map_of_mem hm)
    rw [Function.comp, Task.value?_of_ending he, connectTask_stream he]
  have hmembers : (g.members p).map (fun m => Stream.ofSession m.1.1 m.1.2) =
      (g.sessions p).map fun x => .ofSession x.1 x.2 := by
    rw [members, ← List.zipIdx_map_fst 0 (g.sessions p), List.map_map, List.zipIdx_map_fst]
    rfl
  have hvalues : (g.connectTasks p).filterMap Task.value? =
      (g.members p).map fun m => Stream.ofSession m.1.1 m.1.2 := by
    rw [connectTasks_eq, List.filterMap_map, List.filterMap_congr hvalue, List.filterMap_eq_map']
  rw [hstreams, ← hmembers, ← hvalues]
  exact (Task.race_results_perm hend).append_left _

/-! ## What connecting leaves alone -/

theorem connect_keeps {milliseconds : Nat} {p q : Progress}
    (h : (g.connect milliseconds p).2 = .done (.ok ()) q) : p.Keeps .deliverFiltered q := by
  obtain ⟨instant, -, rfl, -⟩ := connect_done_ok h
  rw [Client.fanned]
  split
  · exact ⟨rfl, fun node service hs => numberCalls_other hs _ _ _⟩
  · exact ⟨rfl, fun node service _ => rfl⟩

/-- The sessions that a group opens depend on the counts of its own service only. -/
theorem sessions_congr {p q : Progress}
    (h : ∀ node, p.calls node .deliverFiltered = q.calls node .deliverFiltered) :
    g.sessions p = g.sessions q := by
  rw [sessions, sessions]
  dsimp only
  rw [numberCalls_congr h]

/-- How a member connects depends on the instant, the headers and the sessions only. -/
theorem memberConnects_congr {p q : Progress} (hclock : q.clock = p.clock)
    (hheaders : q.headers = p.headers) (hsessions : g.sessions q = g.sessions p) :
    g.MemberConnects q = g.MemberConnects p := by
  have hseek : g.seekAt q = g.seekAt p := by
    funext place
    rw [seekAt, seekAt, requests, requests, hclock, hheaders, hsessions]
  funext m t result
  refine propext ⟨fun h => ?_, fun h => ?_⟩
  · cases h with
    | refused ho => rw [hclock]; exact .refused ho
    | unsigned ho hr he => rw [hclock]; exact .unsigned ho (hseek ▸ hr) he
    | rejected ho hr he hs => rw [hclock]; exact .rejected ho (hseek ▸ hr) he hs
    | accepted ho hr he hs => rw [hclock]; exact .accepted ho (hseek ▸ hr) he hs
  · cases h with
    | refused ho => rw [← hclock]; exact .refused ho
    | unsigned ho hr he => rw [← hclock]; exact .unsigned ho (hseek ▸ hr) he
    | rejected ho hr he hs => rw [← hclock]; exact .rejected ho (hseek ▸ hr) he hs
    | accepted ho hr he hs => rw [← hclock]; exact .accepted ho (hseek ▸ hr) he hs

theorem length_sessions (g : DeliverGroup) (p : Progress) :
    (g.sessions p).length = g.clients.length := by
  rw [sessions, List.length_map, List.length_zip, length_numberCalls, List.length_map, Nat.min_self]


theorem connectTask_asked (p : Progress) (requests : List SeekRequest) (place : Nat)
    (node : NodeId) (session : Session DeliverResponse) :
    ∀ a ∈ (connectTask p.clock requests place node session).asked,
      a.node = node ∧ (a.call = .openFiltered ∨ ∃ envelope, a.call = .send envelope) := by
  intro a ha
  rw [connectTask] at ha
  split at ha
  · rw [List.mem_singleton.1 ha]
    exact ⟨rfl, .inl rfl⟩
  · rw [List.mem_singleton.1 ha]
    exact ⟨rfl, .inl rfl⟩
  · rcases List.mem_cons.1 ha with rfl | ha
    · exact ⟨rfl, .inl rfl⟩
    · rw [List.mem_singleton.1 ha]
      exact ⟨rfl, .inr ⟨_, rfl⟩⟩

/-- The sessions of a group are those of its peers. -/
theorem exists_client_of_session {x : NodeId × Session DeliverResponse} (h : x ∈ g.sessions p) :
    ∃ d ∈ g.clients, x.1 = d.id := by
  obtain ⟨⟨peer, n⟩, hm, rfl⟩ := List.mem_map.1 h
  exact ⟨peer, (List.of_mem_zip hm).1, rfl⟩

theorem connected_apply (g : DeliverGroup) (milliseconds : Nat) (p : Progress) :
    g.connected milliseconds p =
      (g.connect milliseconds p).2.map fun _ => (g.connect milliseconds p).1 := rfl

/-! ## What connecting asks -/

/-- Connecting opens streams to the peers and sends them seek requests. -/
theorem connected_asksOnly (g : DeliverGroup) (milliseconds : Nat) :
    Client.AsksOnly (fun node c => (∃ d ∈ g.clients, node = d.id) ∧
      (c = .openFiltered ∨ ∃ envelope, c = .send envelope)) (g.connected milliseconds) := by
  refine Client.asksOnly_of_awaitFan (g.connecting milliseconds) (fun p => ?_)
    fun p task hm a ha => ?_
  · rw [connected_apply, connect_run, Run.progress_map, Run.progress_map]
  · have htask : task ∈ g.connectTasks p := hm
    rw [connectTasks_eq] at htask
    obtain ⟨m, hmember, rfl⟩ := List.mem_map.1 htask
    obtain ⟨hnode, hcall⟩ := connectTask_asked p _ _ _ _ a ha
    have hsession : m.1 ∈ g.sessions p :=
      List.mem_of_getElem? (List.mem_zipIdx_iff_getElem?.1 hmember)
    rw [hnode]
    exact ⟨exists_client_of_session hsession, hcall⟩

end DeliverGroup

end LedgerClient
