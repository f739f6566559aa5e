import LedgerClient.Client.Transaction
import LedgerClient.Proofs.Broadcast
import LedgerClient.Proofs.Group.Outcome
/-!
# Submitting what was endorsed

`submitEndorsed` assembles an envelope, connects a group where there is something to
wait for, broadcasts the envelope and waits for the group.

* `DeliversReady`: when the group is connected.
* `submitEndorsed_done_ok`, `submitEndorsed_done_error`: which of these steps a run
  that ends has gone through.
* `submitEndorsed_asked_of_ready`, `submitEndorsed_asked_of_not_ready`: nothing but
  seek requests is sent before the broadcast, which comes only after an envelope is
  assembled and the group is connected.
-/

namespace LedgerClient

/-- The time for commit, where there is a peer to wait for. -/
def Endpoints.waitFor (endpoints : Endpoints) (wait : Option Nat) : Option Nat :=
  if endpoints.delivers.isEmpty then none else wait

theorem Endpoints.waitFor_eq_some {endpoints : Endpoints} {wait : Option Nat}
    {milliseconds : Nat} :
    endpoints.waitFor wait = some milliseconds ↔
      wait = some milliseconds ∧ endpoints.delivers ≠ [] := by
  rw [waitFor]
  cases endpoints.delivers with
  | nil => exact ⟨fun h => (nomatch h), fun h => absurd rfl h.2⟩
  | cons d rest => exact ⟨fun h => ⟨h, List.cons_ne_nil d rest⟩, fun h => h.1⟩

/-- The group that confirms a transaction. -/
def confirmationGroup (signer : Signer) (endpoints : Endpoints) (channelId txId : String) :
    DeliverGroup :=
  .fresh endpoints.delivers signer channelId txId endpoints.tlsCertHash

/-- Waits for a group, if there is one. -/
def awaitGroup : Option (DeliverGroup × Nat) → Client Unit
  | none => return ()
  | some (group, milliseconds) => group.awaitCommit milliseconds

variable {signer : Signer} {endpoints : Endpoints} {channelId txId : String} {wait : Option Nat}
  {endorsed : EndorsedProposal} {envelope : Envelope} {p q : Progress}
  {group? : Option (DeliverGroup × Nat)} {e : ClientError}

/-! ## Confirmation -/

theorem confirmation_of_none (h : endpoints.waitFor wait = none) (p : Progress) :
    confirmation signer endpoints channelId txId wait p = .done (.ok none) p := by
  rw [Endpoints.waitFor] at h
  cases wait with
  | none => rfl
  | some milliseconds =>
    split at h
    · rename_i hempty
      rw [confirmation, if_pos hempty]
      rfl
    · cases h

theorem confirmation_of_some {milliseconds : Nat}
    (h : endpoints.waitFor wait = some milliseconds) (p : Progress) :
    confirmation signer endpoints channelId txId wait p =
      ((confirmationGroup signer endpoints channelId txId).connect milliseconds p).2.map fun _ =>
        some (((confirmationGroup signer endpoints channelId txId).connect milliseconds p).1,
          milliseconds) := by
  obtain ⟨rfl, hne⟩ := Endpoints.waitFor_eq_some.1 h
  have hempty : ¬endpoints.delivers.isEmpty = true := fun he => hne (List.isEmpty_iff.1 he)
  rw [confirmation, if_neg hempty]
  refine (Client.bind_pure_apply _ _ p).trans ?_
  rw [DeliverGroup.connected_apply, Run.map_map]
  rfl

theorem confirmation_done_ok :
    confirmation signer endpoints channelId txId wait p = .done (.ok group?) q ↔
      (endpoints.waitFor wait = none ∧ group? = none ∧ q = p) ∨
        ∃ milliseconds, endpoints.waitFor wait = some milliseconds ∧
          ((confirmationGroup signer endpoints channelId txId).connect milliseconds p).2 =
            .done (.ok ()) q ∧
          group? = some (((confirmationGroup signer endpoints channelId txId).connect
            milliseconds p).1, milliseconds) := by
  cases hw : endpoints.waitFor wait with
  | none =>
    rw [confirmation_of_none hw]
    constructor
    · intro h
      cases h
      exact .inl ⟨rfl, rfl, rfl⟩
    · rintro (⟨-, rfl, rfl⟩ | ⟨_, h, -⟩)
      · rfl
      · cases h
  | some milliseconds =>
    rw [confirmation_of_some hw, Run.map_done_ok]
    constructor
    · rintro ⟨_, h, rfl⟩
      exact .inr ⟨milliseconds, rfl, h, rfl⟩
    · rintro (⟨h, -⟩ | ⟨_, heq, h, rfl⟩)
      · cases h
      · cases heq
        exact ⟨(), h, rfl⟩

/-- The streams of a group that has connected are those of its sessions. -/
theorem mem_streams_of_connect {milliseconds : Nat} {s : Stream DeliverResponse}
    (h : ((confirmationGroup signer endpoints channelId txId).connect milliseconds p).2 =
      .done (.ok ()) q) :
    s ∈ ((confirmationGroup signer endpoints channelId txId).connect milliseconds p).1.streams ↔
      ∃ x ∈ (confirmationGroup signer endpoints channelId txId).sessions p,
        .ofSession x.1 x.2 = s :=
  (DeliverGroup.connect_streams_perm h).mem_iff.trans List.mem_map

theorem confirmation_done_error :
    confirmation signer endpoints channelId txId wait p = .done (.error e) q ↔
      ∃ milliseconds, endpoints.waitFor wait = some milliseconds ∧
        ((confirmationGroup signer endpoints channelId txId).connect milliseconds p).2 =
          .done (.error e) q := by
  cases hw : endpoints.waitFor wait with
  | none =>
    rw [confirmation_of_none hw]
    exact ⟨fun h => (nomatch h), fun ⟨_, h, _⟩ => (nomatch h)⟩
  | some milliseconds =>
    rw [confirmation_of_some hw, Run.map_done_error]
    constructor
    · intro h
      exact ⟨milliseconds, rfl, h⟩
    · rintro ⟨_, heq, h⟩
      cases heq
      exact h

/-- Confirmation keeps the limit and counts nothing but the streams that it opens. -/
theorem confirmation_keeps
    (h : confirmation signer endpoints channelId txId wait p = .done (.ok group?) q) :
    p.Keeps .deliverFiltered q := by
  rcases confirmation_done_ok.1 h with ⟨-, -, rfl⟩ | ⟨milliseconds, -, h, -⟩
  · exact ⟨rfl, fun _ _ _ => rfl⟩
  · exact DeliverGroup.connect_keeps h

/-- What is asked for confirmation: streams to the deliver peers, and seek requests on them. -/
def SeeksOnly (endpoints : Endpoints) (node : NodeId) (call : Call) : Prop :=
  (∃ d ∈ endpoints.delivers, node = d.id) ∧
    (call = .openFiltered ∨ ∃ envelope, call = .send envelope)

theorem confirmation_asksOnly (signer : Signer) (endpoints : Endpoints) (channelId txId : String)
    (wait : Option Nat) :
    Client.AsksOnly (SeeksOnly endpoints)
      (confirmation signer endpoints channelId txId wait) := by
  cases wait with
  | none => exact .pure _
  | some milliseconds =>
    rw [confirmation]
    split
    · exact .pure _
    · exact .bind (DeliverGroup.connected_asksOnly _ _) fun _ => .pure _

theorem awaitGroup_asksOnly (group? : Option (DeliverGroup × Nat)) :
    Client.AsksOnly (fun _ c => c = .receive ∨ c = .close) (awaitGroup group?) := by
  cases group? with
  | none => exact .pure _
  | some x => exact DeliverGroup.awaitCommit_asksOnly _ _

/-- Where commit is to be waited for, every deliver peer has accepted its signed seek request
before the deadline, the last one at an instant. -/
def DeliversReady (signer : Signer) (endpoints : Endpoints) (channelId txId : String)
    (wait : Option Nat) (p : Progress) (instant : Nat) : Prop :=
  match endpoints.waitFor wait with
  | none => instant = p.clock
  | some milliseconds =>
    let g := confirmationGroup signer endpoints channelId txId
    Task.AllBy p.clock (g.members p)
      (fun m t => t < p.before (p.clock + milliseconds) ∧ g.MemberConnects p m t (.ok ())) instant

theorem deliversReady_of_confirmation
    (h : confirmation signer endpoints channelId txId wait p = .done (.ok group?) q) :
    DeliversReady signer endpoints channelId txId wait p q.clock := by
  rw [DeliversReady]
  rcases confirmation_done_ok.1 h with ⟨hw, -, rfl⟩ | ⟨milliseconds, hw, hconnect, -⟩
  · rw [hw]
  · rw [hw]
    exact DeliverGroup.allConnect_of_connect hconnect

theorem exists_confirmation {instant : Nat}
    (h : DeliversReady signer endpoints channelId txId wait p instant) :
    ∃ group? q, confirmation signer endpoints channelId txId wait p = .done (.ok group?) q ∧
      q.clock = instant := by
  rw [DeliversReady] at h
  cases hw : endpoints.waitFor wait with
  | none =>
    rw [hw] at h
    exact ⟨none, p, confirmation_of_none hw p, h.symm⟩
  | some milliseconds =>
    rw [hw] at h
    obtain ⟨q, hconnect, hclock⟩ := DeliverGroup.connect_of_allConnect h
    exact ⟨_, q, confirmation_done_ok.2 (.inr ⟨milliseconds, hw, hconnect, rfl⟩), hclock⟩

/-- Whether the deliver peers are ready depends on the instant, the headers, the limit and the
streams that have been opened only. -/
theorem deliversReady_congr (hclock : q.clock = p.clock) (hheaders : q.headers = p.headers)
    (hkeeps : p.Keeps .endorser q) {instant : Nat} :
    DeliversReady signer endpoints channelId txId wait q instant ↔
      DeliversReady signer endpoints channelId txId wait p instant := by
  have hsessions : (confirmationGroup signer endpoints channelId txId).sessions q =
      (confirmationGroup signer endpoints channelId txId).sessions p :=
    DeliverGroup.sessions_congr fun node => hkeeps.calls node _ (by decide)
  have hbefore : q.before = p.before := by
    funext deadline
    rw [Progress.before, Progress.before, hkeeps.limit]
  rw [DeliversReady, DeliversReady]
  cases endpoints.waitFor wait with
  | none => rw [hclock]
  | some milliseconds =>
    simp only [DeliverGroup.members, hsessions, hclock, hbefore,
      DeliverGroup.memberConnects_congr hclock hheaders hsessions]

/-! ## The steps of a run -/

theorem submitEndorsed_eq (signer : Signer) (endpoints : Endpoints) (channelId : String)
    (endorsed : EndorsedProposal) (wait : Option Nat) :
    submitEndorsed signer endpoints channelId endorsed wait =
      liftM (assembleTransaction endorsed.proposal signer endorsed.responses) >>= fun envelope =>
      confirmation signer endpoints channelId endorsed.txId wait >>= fun group? =>
      broadcastEnvelope endpoints.orderer envelope endpoints.broadcastMs >>= fun _ =>
      awaitGroup group? := by
  rw [submitEndorsed]
  refine congrArg _ (funext fun envelope => congrArg _ (funext fun group? => ?_))
  refine congrArg _ (funext fun _ => ?_)
  cases group? <;> rfl

/-- The envelope is assembled and the group, if any, is connected, so the broadcast begins. -/
structure Ready (signer : Signer) (endpoints : Endpoints) (channelId : String)
    (endorsed : EndorsedProposal) (wait : Option Nat) (p : Progress) (envelope : Envelope)
    (group? : Option (DeliverGroup × Nat)) (q : Progress) : Prop where
  assembled : assembleTransaction endorsed.proposal signer endorsed.responses = .ok envelope
  confirmed : confirmation signer endpoints channelId endorsed.txId wait p = .done (.ok group?) q

theorem Ready.unique {envelope' : Envelope} {group?' : Option (DeliverGroup × Nat)}
    {q' : Progress} (h : Ready signer endpoints channelId endorsed wait p envelope group? q)
    (h' : Ready signer endpoints channelId endorsed wait p envelope' group?' q') :
    envelope' = envelope ∧ group?' = group? ∧ q' = q := by
  have hassembled := h.assembled.symm.trans h'.assembled
  have hconfirmed := h.confirmed.symm.trans h'.confirmed
  cases hassembled
  cases hconfirmed
  exact ⟨rfl, rfl, rfl⟩

theorem submitEndorsed_of_ready
    (h : Ready signer endpoints channelId endorsed wait p envelope group? q) :
    submitEndorsed signer endpoints channelId endorsed wait p =
      (broadcastEnvelope endpoints.orderer envelope endpoints.broadcastMs >>= fun _ =>
        awaitGroup group?) q := by
  have hlift : (liftM (assembleTransaction endorsed.proposal signer endorsed.responses) :
      Client Envelope) p = .done (.ok envelope) p := by
    rw [h.assembled]
    rfl
  rw [submitEndorsed_eq, Client.bind_of_ok hlift, Client.bind_of_ok h.confirmed]

/-- A run that succeeds has gone through all steps. -/
theorem submitEndorsed_done_ok
    (h : submitEndorsed signer endpoints channelId endorsed wait p = .done (.ok ()) q) :
    ∃ envelope group? q₁ q₂, Ready signer endpoints channelId endorsed wait p envelope group? q₁ ∧
      broadcastEnvelope endpoints.orderer envelope endpoints.broadcastMs q₁ = .done (.ok ()) q₂ ∧
      awaitGroup group? q₂ = .done (.ok ()) q := by
  rw [submitEndorsed_eq] at h
  obtain ⟨envelope, p', hlift, h⟩ := Client.bind_done_ok.1 h
  obtain ⟨group?, q₁, hconfirmed, h⟩ := Client.bind_done_ok.1 h
  obtain ⟨_, q₂, hbroadcast, hwait⟩ := Client.bind_done_ok.1 h
  rw [Client.lift_apply] at hlift
  obtain ⟨hassembled, rfl⟩ := Run.done.inj hlift
  exact ⟨envelope, group?, q₁, q₂, ⟨hassembled, hconfirmed⟩, hbroadcast, hwait⟩

/-- A run that fails has failed in one of its steps, with the failure of that step. -/
theorem submitEndorsed_done_error
    (h : submitEndorsed signer endpoints channelId endorsed wait p = .done (.error e) q) :
    assembleTransaction endorsed.proposal signer endorsed.responses = .error e ∨
      (∃ envelope,
        assembleTransaction endorsed.proposal signer endorsed.responses = .ok envelope ∧
        confirmation signer endpoints channelId endorsed.txId wait p = .done (.error e) q) ∨
      ∃ envelope group? q₁, Ready signer endpoints channelId endorsed wait p envelope group? q₁ ∧
        (broadcastEnvelope endpoints.orderer envelope endpoints.broadcastMs q₁ =
            .done (.error e) q ∨
          ∃ q₂, broadcastEnvelope endpoints.orderer envelope endpoints.broadcastMs q₁ =
              .done (.ok ()) q₂ ∧ awaitGroup group? q₂ = .done (.error e) q) := by
  rw [submitEndorsed_eq] at h
  rcases Client.bind_done_error.1 h with hlift | ⟨envelope, p', hlift, h⟩
  · exact .inl (Run.done.inj hlift).1
  obtain ⟨hassembled, rfl⟩ := Run.done.inj hlift
  rcases Client.bind_done_error.1 h with hfailed | ⟨group?, q₁, hconfirmed, h⟩
  · exact .inr (.inl ⟨envelope, hassembled, hfailed⟩)
  refine .inr (.inr ⟨envelope, group?, q₁, ⟨hassembled, hconfirmed⟩, ?_⟩)
  rcases Client.bind_done_error.1 h with hfailed | ⟨_, q₂, hbroadcast, hwait⟩
  · exact .inl hfailed
  · exact .inr ⟨q₂, hbroadcast, hwait⟩

/-! ## What a run asks -/

/-- Before it is ready, a run sends nothing but seek requests. -/
theorem Ready.asked (h : Ready signer endpoints channelId endorsed wait p envelope group? q) :
    ∃ seeks, q.asked = p.asked ++ seeks ∧ ∀ a ∈ seeks, SeeksOnly endpoints a.node a.call := by
  obtain ⟨seeks, hasked, hseeks⟩ :=
    confirmation_asksOnly signer endpoints channelId endorsed.txId wait p
  rw [h.confirmed] at hasked
  exact ⟨seeks, hasked, hseeks⟩

/-- A run that is ready opens a broadcast stream and, if that opens, sends the envelope. -/
theorem submitEndorsed_asked_of_ready
    (h : Ready signer endpoints channelId endorsed wait p envelope group? q) :
    ∃ rest, (submitEndorsed signer endpoints channelId endorsed wait p).progress.asked =
        q.asked ++ ⟨q.clock, endpoints.orderer.id, .openBroadcast⟩ :: rest ∧
      ((¬endpoints.orderer.Opens q ∧ rest = []) ∨
        (endpoints.orderer.Opens q ∧ ∃ t more, q.clock ≤ t ∧
          rest = ⟨t, endpoints.orderer.id, .send envelope⟩ :: more ∧
          ∀ a ∈ more, a.call = .receive ∨ a.call = .close)) := by
  rw [submitEndorsed_of_ready h]
  by_cases hopens : endpoints.orderer.Opens q
  · obtain ⟨t, more, hasked, ht, hmore⟩ :=
      broadcast_asked_of_opens envelope endpoints.broadcastMs hopens
    obtain ⟨waited, hwaited, hall⟩ := Client.bind_asked
      (broadcastEnvelope endpoints.orderer envelope endpoints.broadcastMs)
      (fun _ => awaitGroup_asksOnly group?) q
    refine ⟨⟨t, endpoints.orderer.id, .send envelope⟩ :: (more ++ waited), ?_,
      .inr ⟨hopens, t, more ++ waited, ht, rfl, fun a ha => ?_⟩⟩
    · rw [hwaited, hasked, List.append_assoc, List.cons_append, List.cons_append]
    · rcases List.mem_append.1 ha with ha | ha
      · exact hmore a ha
      · exact hall a ha
  · have hasked := broadcast_asked_of_not_opens envelope endpoints.broadcastMs hopens
    refine ⟨[], ?_, .inl ⟨hopens, rfl⟩⟩
    cases hrun : broadcastEnvelope endpoints.orderer envelope endpoints.broadcastMs q with
    | done result q' =>
      rw [hrun] at hasked
      cases result with
      | ok _ => exact absurd (broadcast_done_ok hrun).1 hopens
      | error e =>
        rw [Client.bind_of_error hrun]
        exact hasked
    | stopped q' =>
      rw [hrun] at hasked
      rw [Client.bind_of_stopped hrun]
      exact hasked

/-- A run that never gets ready sends nothing but seek requests. -/
theorem submitEndorsed_asked_of_not_ready
    (h : ∀ envelope group? q,
      ¬Ready signer endpoints channelId endorsed wait p envelope group? q) :
    ∃ seeks, (submitEndorsed signer endpoints channelId endorsed wait p).progress.asked =
        p.asked ++ seeks ∧ ∀ a ∈ seeks, SeeksOnly endpoints a.node a.call := by
  rw [submitEndorsed_eq]
  cases ha : assembleTransaction endorsed.proposal signer endorsed.responses with
  | error e => exact ⟨[], (List.append_nil _).symm, fun _ h => nomatch h⟩
  | ok envelope =>
    obtain ⟨seeks, hasked, hseeks⟩ :=
      confirmation_asksOnly signer endpoints channelId endorsed.txId wait p
    refine ⟨seeks, ?_, hseeks⟩
    have hlift : (liftM (Except.ok envelope : Except ClientError Envelope) :
        Client Envelope) p = .done (.ok envelope) p := rfl
    rw [Client.bind_of_ok hlift]
    cases hc : confirmation signer endpoints channelId endorsed.txId wait p with
    | done result q =>
      rw [hc] at hasked
      cases result with
      | ok group? => exact absurd ⟨ha, hc⟩ (h envelope group? q)
      | error e =>
        rw [Client.bind_of_error hc]
        exact hasked
    | stopped q =>
      rw [hc] at hasked
      rw [Client.bind_of_stopped hc]
      exact hasked

end LedgerClient
