import LedgerClient.Client.Lifecycle
import LedgerClient.Proofs.Endorsing
import LedgerClient.Proofs.Transaction.Submitting
/-!
# Preparing a transaction

`Submission` is what a client submits: an invocation, a commit or an approval.  Each is
prepared by asking peers (`Submission.prepare`), and then submitted unless a peer has
rejected it (`Submission.run_eq`).

* `endorse_done_ok`: what endorsement by all endorsers leaves.
* `prepare_prepared`, `exists_prepare`: a submission is prepared exactly when all peers
  have answered in time with statuses that it lets pass.
* `prepare_rejected`: what rejects an invocation is the answer of a peer.
* `prepare_asksOnly`: preparing asks nothing but proposals.
* `run_done_ok`, `run_done_error`: what a submission that ends has gone through.
-/

namespace LedgerClient

/-! ## Endorsement by all endorsers -/

section Endorse

variable {signer : Signer} {endpoints : Endpoints} {channelId : String} {request : Request}
  {endorsed : EndorsedProposal} {p q : Progress}

theorem endorse_done_ok :
    endorse signer endpoints channelId request p = .done (.ok endorsed) q ↔
      ∃ built headers signed, buildProposal signer channelId request p.headers = .ok built headers ∧
        signProposal built.proposal signer = .ok signed ∧
        collectEndorsements signed endpoints.endorsers endpoints.endorseMs
          { p with headers := headers } = .done (.ok endorsed.responses) q ∧
        endorsed.responses ≠ [] ∧ endorsed = ⟨built.txId, built.proposal, endorsed.responses⟩ := by
  rw [endorse, Client.bind_done_ok]
  constructor
  · rintro ⟨built, p₁, hissue, h⟩
    obtain ⟨headers, hbuilt, rfl⟩ := Client.issue_done_ok.1 hissue
    obtain ⟨signed, p₂, hlift, h⟩ := Client.bind_done_ok.1 h
    obtain ⟨hsigned, rfl⟩ := Client.lift_done_ok.1 hlift
    obtain ⟨responses, p₃, hcollect, h⟩ := Client.bind_done_ok.1 h
    split at h
    · cases h
    · rename_i hempty
      cases h
      exact ⟨built, headers, signed, hbuilt, hsigned, hcollect,
        fun hnil => hempty (List.isEmpty_iff.2 hnil), rfl⟩
  · rintro ⟨built, headers, signed, hbuilt, hsigned, hcollect, hne, heq⟩
    refine ⟨built, _, Client.issue_done_ok.2 ⟨headers, hbuilt, rfl⟩, ?_⟩
    refine Client.bind_done_ok.2 ⟨signed, _, Client.lift_done_ok.2 ⟨hsigned, rfl⟩, ?_⟩
    refine Client.bind_done_ok.2 ⟨_, q, hcollect, ?_⟩
    rw [if_neg fun hempty => hne (List.isEmpty_iff.1 hempty), heq]
    rfl

/-- Where all endorsers answer before the deadline, the request is endorsed with their answers. -/
theorem exists_endorse {built : BuiltProposal} {headers : HeaderSource} {signed : SignedProposal}
    {instant : Nat} (hbuilt : buildProposal signer channelId request p.headers = .ok built headers)
    (hsigned : signProposal built.proposal signer = .ok signed) (hne : endpoints.endorsers ≠ [])
    (hanswered : Task.AllBy p.clock (nextReplies endpoints.endorsers p)
      (fun r t => t < p.before (p.clock + endpoints.endorseMs) ∧ r.AnsweredAt p.clock t) instant) :
    ∃ endorsed q, endorse signer endpoints channelId request p = .done (.ok endorsed) q ∧
      q.clock = instant ∧ ∀ a ∈ endorsed.responses,
        ∃ r ∈ nextReplies endpoints.endorsers p, r.outcome = .answered a := by
  obtain ⟨responses, q, hcollect, hclock⟩ : ∃ responses q, collectEndorsements signed
      endpoints.endorsers endpoints.endorseMs { p with headers := headers } =
        .done (.ok responses) q ∧ q.clock = instant :=
    exists_collectEndorsements hanswered
  have hcollected := collectEndorsements_collected hcollect
  have hresponses : responses ≠ [] := by
    rw [← List.length_pos_iff, hcollected.length_eq, List.length_pos_iff]
    exact hne
  refine ⟨⟨built.txId, built.proposal, responses⟩, q, endorse_done_ok.2 ⟨built, headers, signed,
    hbuilt, hsigned, hcollect, hresponses, rfl⟩, hclock, fun a ha => hcollected.mem_iff.1 ha⟩

theorem endorse_asksOnly (signer : Signer) (endpoints : Endpoints) (channelId : String)
    (request : Request) :
    Client.AsksOnly (fun _ c => ∃ proposal, c = .proposal proposal)
      (endorse signer endpoints channelId request) := by
  refine .bind (.issue _) fun built => .bind (.lift _) fun signed => .bind ?_ fun responses => ?_
  · exact (collectEndorsements_asksOnly signed _ _).mono fun _ _ h => ⟨signed, h⟩
  · split
    · exact .throw _
    · exact .pure _

end Endorse

/-! ## Statuses -/

/-- Requires status 200 of every response. -/
def requireAllOk (responses : List ProposalResponse) : Client Unit :=
  forIn responses () fun answer _ => do
    requireOk answer.response
    return .yield ()

theorem requireOk_ok_iff {response : Response} :
    requireOk response = .ok () ↔ response.status = statusOk := by
  rw [requireOk]
  by_cases h : response.status = statusOk
  · rw [if_pos h]
    exact ⟨fun _ => h, fun _ => rfl⟩
  · rw [if_neg h]
    exact ⟨fun he => (nomatch he), fun he => absurd he h⟩

theorem requireAllOk_cons (r : ProposalResponse) (rest : List ProposalResponse) :
    requireAllOk (r :: rest) =
      (liftM (requireOk r.response) : Client Unit) >>= fun _ => requireAllOk rest := by
  rw [requireAllOk, List.forIn_cons, Client.bind_assoc]
  rfl

theorem requireAllOk_done_ok {responses : List ProposalResponse} {p q : Progress} :
    requireAllOk responses p = .done (.ok ()) q ↔
      (∀ r ∈ responses, r.response.status = statusOk) ∧ q = p := by
  induction responses with
  | nil =>
    constructor
    · intro h
      cases h
      exact ⟨fun _ h => (nomatch h), rfl⟩
    · rintro ⟨-, rfl⟩
      rfl
  | cons r rest ih =>
    rw [requireAllOk_cons, Client.bind_done_ok, List.forall_mem_cons]
    constructor
    · rintro ⟨_, p', hlift, hrest⟩
      obtain ⟨hr, rfl⟩ := Client.lift_done_ok.1 hlift
      obtain ⟨hall, rfl⟩ := ih.1 hrest
      exact ⟨⟨requireOk_ok_iff.1 hr, hall⟩, rfl⟩
    · rintro ⟨⟨hr, hall⟩, rfl⟩
      exact ⟨(), q, Client.lift_done_ok.2 ⟨requireOk_ok_iff.2 hr, rfl⟩, ih.2 ⟨hall, rfl⟩⟩

theorem requireAllOk_asksOnly {allowed : NodeId → Call → Prop} (responses : List ProposalResponse) :
    Client.AsksOnly allowed (requireAllOk responses) := by
  induction responses with
  | nil => exact .pure _
  | cons r rest ih =>
    rw [requireAllOk_cons]
    exact .bind (.lift _) fun _ => ih

/-! ## Submissions -/

/-- What a client submits. -/
inductive Submission where
  | invoke (request : Request)
  | commit (definition : ChaincodeDefinition)
  | approve (definition : ChaincodeDefinition) (packageId : Option String)

namespace Submission

def request : Submission → Request
  | invoke request => request
  | commit definition => .commit definition
  | approve definition packageId => .approve definition packageId

/-- The call of the client. -/
def run (s : Submission) (signer : Signer) (endpoints : Endpoints) (channelId : String)
    (wait : Option Nat) : Client TxResponse :=
  match s with
  | invoke request => LedgerClient.invoke signer endpoints channelId request wait
  | commit definition => LedgerClient.commit signer endpoints channelId definition wait
  | approve definition packageId =>
    LedgerClient.approve signer endpoints channelId definition packageId wait

/-- The peers that are asked: all endorsers, and only the committer for an approval. -/
def peers (s : Submission) (endpoints : Endpoints) : List Endorser :=
  match s with
  | approve _ _ => endpoints.committer.toOption.toList
  | _ => endpoints.endorsers

/-- With this status a peer accepts: a success for an invocation, and 200 otherwise. -/
def Accepts : Submission → Int32 → Prop
  | invoke _, status => isSuccess status = true
  | _, status => status = statusOk

/-- With this status the submission goes on to assembly. -/
def Passes : Submission → Int32 → Prop
  | invoke _, status => ¬errorThreshold ≤ status
  | _, status => status = statusOk

/-- An answer comes in time; that of a single peer may come at the deadline itself. -/
def InTime (s : Submission) (p : Progress) (milliseconds t : Nat) : Prop :=
  match s with
  | approve _ _ => t ≤ p.before (p.clock + milliseconds)
  | _ => t < p.before (p.clock + milliseconds)

/-- Asks the peers; the result is an answer that rejects, or what is to be submitted. -/
def prepare (s : Submission) (signer : Signer) (endpoints : Endpoints) (channelId : String) :
    Client (TxResponse ⊕ EndorsedProposal) :=
  match s with
  | invoke request => do
    let endorsed ← endorse signer endpoints channelId request
    match endorsed.responses.find? fun r => errorThreshold ≤ r.response.status with
    | some rejected => return .inl ⟨endorsed.txId, rejected.response⟩
    | none => return .inr endorsed
  | commit definition => do
    let endorsed ← endorse signer endpoints channelId (.commit definition)
    requireAllOk endorsed.responses
    return .inr endorsed
  | approve definition packageId => do
    let built ← buildProposal signer channelId (.approve definition packageId)
    let signed ← signProposal built.proposal signer
    let committer ← endpoints.committer
    let answer ← endorseOne signed committer endpoints.endorseMs
    requireOk answer.response
    return .inr ⟨built.txId, built.proposal, [answer]⟩

/-- Submits what is prepared. -/
def finish (signer : Signer) (endpoints : Endpoints) (channelId : String) (wait : Option Nat) :
    TxResponse ⊕ EndorsedProposal → Client TxResponse
  | .inl tx => return tx
  | .inr endorsed => do
    submitEndorsed signer endpoints channelId endorsed wait
    return ⟨endorsed.txId, ← firstResponse endorsed.responses⟩

theorem run_eq (s : Submission) (signer : Signer) (endpoints : Endpoints) (channelId : String)
    (wait : Option Nat) :
    s.run signer endpoints channelId wait =
      s.prepare signer endpoints channelId >>= finish signer endpoints channelId wait := by
  cases s with
  | invoke request =>
    rw [run, prepare, Client.bind_assoc, LedgerClient.invoke]
    refine congrArg _ (funext fun endorsed => ?_)
    cases endorsed.responses.find? fun r => errorThreshold ≤ r.response.status <;> rfl
  | commit definition =>
    rw [run, prepare, Client.bind_assoc, LedgerClient.commit]
    refine congrArg _ (funext fun endorsed => ?_)
    rw [Client.bind_assoc]
    rfl
  | approve definition packageId =>
    rw [run, prepare, Client.bind_assoc, LedgerClient.approve]
    refine congrArg _ (funext fun built => ?_)
    rw [Client.bind_assoc]
    refine congrArg _ (funext fun signed => ?_)
    rw [Client.bind_assoc]
    refine congrArg _ (funext fun committer => ?_)
    rw [Client.bind_assoc]
    refine congrArg _ (funext fun answer => ?_)
    rw [Client.bind_assoc]
    rfl

variable {s : Submission} {signer : Signer} {endpoints : Endpoints} {channelId : String}
  {endorsed : EndorsedProposal} {p q : Progress}

theorem peers_approve_eq {definition : ChaincodeDefinition} {packageId : Option String}
    {committer : Endorser} (h : endpoints.committer = .ok committer) :
    (approve definition packageId).peers endpoints = [committer] := by
  rw [peers, h]
  rfl

theorem find?_rejected_eq_none_iff {responses : List ProposalResponse} :
    (responses.find? fun r => errorThreshold ≤ r.response.status) = none ↔
      ∀ r ∈ responses, ¬errorThreshold ≤ r.response.status := by
  rw [List.find?_eq_none]
  exact forall₂_congr fun r _ => not_congr decide_eq_true_iff

/-- A proposal has been built and simulated by all peers in time, with statuses that pass. -/
structure Prepared (s : Submission) (signer : Signer) (endpoints : Endpoints) (channelId : String)
    (p : Progress) (built : BuiltProposal) (headers : HeaderSource) (signed : SignedProposal)
    (endorsed : EndorsedProposal) (q : Progress) : Prop where
  build : buildProposal signer channelId s.request p.headers = .ok built headers
  sign : signProposal built.proposal signer = .ok signed
  collected : Collected signed (s.peers endpoints) (s.InTime p endpoints.endorseMs)
    { p with headers := headers } endorsed.responses q
  answered : endorsed.responses ≠ []
  txId : endorsed.txId = built.txId
  proposal : endorsed.proposal = built.proposal
  passes : ∀ r ∈ endorsed.responses, s.Passes r.response.status

theorem prepare_prepared
    (h : s.prepare signer endpoints channelId p = .done (.ok (.inr endorsed)) q) :
    ∃ built headers signed,
      s.Prepared signer endpoints channelId p built headers signed endorsed q := by
  cases s with
  | invoke request =>
    obtain ⟨endorsed', p', hendorse, hrest⟩ := Client.bind_done_ok.1 h
    obtain ⟨built, headers, signed, hbuilt, hsigned, hcollect, hne, heq⟩ :=
      endorse_done_ok.1 hendorse
    cases hfind : endorsed'.responses.find? fun r => errorThreshold ≤ r.response.status with
    | some rejected =>
      rw [hfind] at hrest
      cases hrest
    | none =>
      rw [hfind] at hrest
      cases hrest
      exact ⟨built, headers, signed, hbuilt, hsigned, collectEndorsements_collected hcollect, hne,
        congrArg EndorsedProposal.txId heq, congrArg EndorsedProposal.proposal heq,
        find?_rejected_eq_none_iff.1 hfind⟩
  | commit definition =>
    obtain ⟨endorsed', p', hendorse, hrest⟩ := Client.bind_done_ok.1 h
    obtain ⟨built, headers, signed, hbuilt, hsigned, hcollect, hne, heq⟩ :=
      endorse_done_ok.1 hendorse
    obtain ⟨_, p'', hrequire, hreturn⟩ := Client.bind_done_ok.1 hrest
    obtain ⟨hall, rfl⟩ := requireAllOk_done_ok.1 hrequire
    cases hreturn
    exact ⟨built, headers, signed, hbuilt, hsigned, collectEndorsements_collected hcollect, hne,
      congrArg EndorsedProposal.txId heq, congrArg EndorsedProposal.proposal heq, hall⟩
  | approve definition packageId =>
    obtain ⟨built, p₁, hissue, h₁⟩ := Client.bind_done_ok.1 h
    obtain ⟨headers, hbuilt, rfl⟩ := Client.issue_done_ok.1 hissue
    obtain ⟨signed, p₂, hsign, h₂⟩ := Client.bind_done_ok.1 h₁
    obtain ⟨hsigned, rfl⟩ := Client.lift_done_ok.1 hsign
    obtain ⟨committer, p₃, hget, h₃⟩ := Client.bind_done_ok.1 h₂
    obtain ⟨hcommitter, rfl⟩ := Client.lift_done_ok.1 hget
    obtain ⟨answer, p₄, hone, h₄⟩ := Client.bind_done_ok.1 h₃
    obtain ⟨_, p₅, hrequire, hreturn⟩ := Client.bind_done_ok.1 h₄
    obtain ⟨hok, rfl⟩ := Client.lift_done_ok.1 hrequire
    cases hreturn
    refine ⟨built, headers, signed, hbuilt, hsigned, ?_, List.cons_ne_nil _ _, rfl, rfl,
      fun r hr => ?_⟩
    · rw [peers_approve_eq hcommitter]
      exact endorseOne_collected hone
    · rw [List.mem_singleton.1 hr]
      exact requireOk_ok_iff.1 hok

/-- Preparation hands back an answer only for an invocation that a peer has rejected. -/
theorem prepare_rejected {tx : TxResponse}
    (h : s.prepare signer endpoints channelId p = .done (.ok (.inl tx)) q) :
    ∃ built headers signed responses,
      buildProposal signer channelId s.request p.headers = .ok built headers ∧
      signProposal built.proposal signer = .ok signed ∧
      Collected signed (s.peers endpoints) (s.InTime p endpoints.endorseMs)
        { p with headers := headers } responses q ∧
      tx.txId = built.txId ∧ errorThreshold ≤ tx.response.status ∧
      ∃ r ∈ responses, tx.response = r.response := by
  cases s with
  | invoke request =>
    obtain ⟨endorsed, p', hendorse, hrest⟩ := Client.bind_done_ok.1 h
    obtain ⟨built, headers, signed, hbuilt, hsigned, hcollect, -, heq⟩ :=
      endorse_done_ok.1 hendorse
    cases hfind : endorsed.responses.find? fun r => errorThreshold ≤ r.response.status with
    | some rejected =>
      rw [hfind] at hrest
      cases hrest
      have hstatus := List.find?_some hfind
      exact ⟨built, headers, signed, endorsed.responses, hbuilt, hsigned,
        collectEndorsements_collected hcollect, congrArg EndorsedProposal.txId heq,
        of_decide_eq_true hstatus, rejected, List.mem_of_find?_eq_some hfind, rfl⟩
    | none =>
      rw [hfind] at hrest
      cases hrest
  | commit definition =>
    obtain ⟨endorsed, p', -, hrest⟩ := Client.bind_done_ok.1 h
    obtain ⟨_, p'', -, hreturn⟩ := Client.bind_done_ok.1 hrest
    cases hreturn
  | approve definition packageId =>
    obtain ⟨built, p₁, -, h₁⟩ := Client.bind_done_ok.1 h
    obtain ⟨signed, p₂, -, h₂⟩ := Client.bind_done_ok.1 h₁
    obtain ⟨committer, p₃, -, h₃⟩ := Client.bind_done_ok.1 h₂
    obtain ⟨answer, p₄, -, h₄⟩ := Client.bind_done_ok.1 h₃
    obtain ⟨_, p₅, -, hreturn⟩ := Client.bind_done_ok.1 h₄
    cases hreturn

/-- A submission is prepared where all peers answer in time with statuses that pass. -/
theorem exists_prepare {built : BuiltProposal} {headers : HeaderSource} {signed : SignedProposal}
    {instant : Nat}
    (hbuilt : buildProposal signer channelId s.request p.headers = .ok built headers)
    (hsigned : signProposal built.proposal signer = .ok signed) (hpeers : s.peers endpoints ≠ [])
    (hanswered : Task.AllBy p.clock (nextReplies (s.peers endpoints) p)
      (fun r t => s.InTime p endpoints.endorseMs t ∧ r.AnsweredAt p.clock t) instant)
    (hpasses : ∀ r ∈ nextReplies (s.peers endpoints) p, ∀ a, r.outcome = .answered a →
      s.Passes a.response.status) :
    ∃ endorsed q, s.prepare signer endpoints channelId p = .done (.ok (.inr endorsed)) q ∧
      q.clock = instant := by
  cases s with
  | invoke request =>
    obtain ⟨endorsed, q, hendorse, hclock, hresponses⟩ :=
      exists_endorse hbuilt hsigned hpeers hanswered
    have hfind : (endorsed.responses.find? fun r => errorThreshold ≤ r.response.status) = none :=
      find?_rejected_eq_none_iff.2 fun a ha => by
        obtain ⟨r, hr, hout⟩ := hresponses a ha
        exact hpasses r hr a hout
    refine ⟨endorsed, q, Client.bind_done_ok.2 ⟨endorsed, q, hendorse, ?_⟩, hclock⟩
    rw [hfind]
    rfl
  | commit definition =>
    obtain ⟨endorsed, q, hendorse, hclock, hresponses⟩ :=
      exists_endorse hbuilt hsigned hpeers hanswered
    have hall : ∀ a ∈ endorsed.responses, a.response.status = statusOk := fun a ha => by
      obtain ⟨r, hr, hout⟩ := hresponses a ha
      exact hpasses r hr a hout
    refine ⟨endorsed, q, Client.bind_done_ok.2 ⟨endorsed, q, hendorse, ?_⟩, hclock⟩
    exact Client.bind_done_ok.2 ⟨(), q, requireAllOk_done_ok.2 ⟨hall, rfl⟩, rfl⟩
  | approve definition packageId =>
    cases hcommitter : endpoints.committer with
    | error e =>
      rw [peers, hcommitter] at hpeers
      exact absurd rfl hpeers
    | ok committer =>
      rw [peers_approve_eq hcommitter] at hanswered hpasses
      obtain ⟨answer, q, hone, hclock⟩ : ∃ answer q, endorseOne signed committer
          endpoints.endorseMs { p with headers := headers } = .done (.ok answer) q ∧
          q.clock = instant :=
        exists_endorseOne hanswered
      have hstatus : answer.response.status = statusOk :=
        hpasses _ (List.mem_singleton.2 rfl) answer (endorseOne_done_ok.1 hone).1
      refine ⟨⟨built.txId, built.proposal, [answer]⟩, q, ?_, hclock⟩
      refine Client.bind_done_ok.2 ⟨built, _, Client.issue_done_ok.2 ⟨headers, hbuilt, rfl⟩, ?_⟩
      refine Client.bind_done_ok.2 ⟨signed, _, Client.lift_done_ok.2 ⟨hsigned, rfl⟩, ?_⟩
      refine Client.bind_done_ok.2 ⟨committer, _, Client.lift_done_ok.2 ⟨hcommitter, rfl⟩, ?_⟩
      refine Client.bind_done_ok.2 ⟨answer, q, hone, ?_⟩
      exact Client.bind_done_ok.2 ⟨(), q, Client.lift_done_ok.2
        ⟨requireOk_ok_iff.2 hstatus, rfl⟩, rfl⟩

/-- Preparing asks nothing but proposals. -/
theorem prepare_asksOnly (s : Submission) (signer : Signer) (endpoints : Endpoints)
    (channelId : String) :
    Client.AsksOnly (fun _ c => ∃ proposal, c = .proposal proposal)
      (s.prepare signer endpoints channelId) := by
  cases s with
  | invoke request =>
    refine .bind (endorse_asksOnly _ _ _ _) fun endorsed => ?_
    split
    · exact .pure _
    · exact .pure _
  | commit definition =>
    exact .bind (endorse_asksOnly _ _ _ _) fun endorsed =>
      .bind (requireAllOk_asksOnly _) fun _ => .pure _
  | approve definition packageId =>
    refine .bind (.issue _) fun built => .bind (.lift _) fun signed => .bind (.lift _)
      fun committer => .bind ?_ fun answer => .bind (.lift _) fun _ => .pure _
    exact (endorseOne_asksOnly signed _ _).mono fun _ _ h => ⟨signed, h⟩

/-! ## Runs that succeed -/

theorem firstResponse_ok {responses : List ProposalResponse} {response : Response}
    (h : firstResponse responses = .ok response) : ∃ r ∈ responses, response = r.response := by
  cases responses with
  | nil => cases h
  | cons first rest =>
    cases h
    exact ⟨first, List.mem_cons_self, rfl⟩

/-- What a submission returns is an answer of a peer, which either rejects it or has been ordered
with the others. -/
theorem run_done_ok {wait : Option Nat} {tx : TxResponse}
    (h : s.run signer endpoints channelId wait p = .done (.ok tx) q) :
    s.prepare signer endpoints channelId p = .done (.ok (.inl tx)) q ∨
      ∃ endorsed q', s.prepare signer endpoints channelId p = .done (.ok (.inr endorsed)) q' ∧
        submitEndorsed signer endpoints channelId endorsed wait q' = .done (.ok ()) q ∧
        tx.txId = endorsed.txId ∧ ∃ r ∈ endorsed.responses, tx.response = r.response := by
  rw [run_eq, Client.bind_done_ok] at h
  obtain ⟨prepared, q', hprepared, hfinish⟩ := h
  cases prepared with
  | inl tx' =>
    cases hfinish
    exact .inl hprepared
  | inr endorsed =>
    obtain ⟨_, q'', hsubmit, hrest⟩ := Client.bind_done_ok.1 hfinish
    obtain ⟨response, q₃, hfirst, hreturn⟩ := Client.bind_done_ok.1 hrest
    obtain ⟨hresponse, rfl⟩ := Client.lift_done_ok.1 hfirst
    cases hreturn
    exact .inr ⟨endorsed, q', hprepared, hsubmit, rfl, firstResponse_ok hresponse⟩

/-- A submission that fails has failed while it was prepared or while it was submitted. -/
theorem run_done_error {wait : Option Nat} {e : ClientError}
    (h : s.run signer endpoints channelId wait p = .done (.error e) q) :
    s.prepare signer endpoints channelId p = .done (.error e) q ∨
      ∃ endorsed q', s.prepare signer endpoints channelId p = .done (.ok (.inr endorsed)) q' ∧
        submitEndorsed signer endpoints channelId endorsed wait q' = .done (.error e) q := by
  rw [run_eq, Client.bind_done_error] at h
  rcases h with hprepare | ⟨prepared, q', hprepared, hfinish⟩
  · exact .inl hprepare
  cases prepared with
  | inl tx => cases hfinish
  | inr endorsed =>
    refine .inr ⟨endorsed, q', hprepared, ?_⟩
    rcases Client.bind_done_error.1 hfinish with hsubmit | ⟨_, q'', -, hrest⟩
    · exact hsubmit
    -- there is a response, so the first one is returned
    obtain ⟨built, headers, signed, h⟩ := prepare_prepared hprepared
    obtain ⟨first, rest, heq⟩ := List.exists_cons_of_ne_nil h.answered
    rw [heq] at hrest
    cases hrest

/-- What a submission returns names the transaction that was built. -/
theorem txId_of_built {wait : Option Nat} {built : BuiltProposal} {headers : HeaderSource}
    {tx : TxResponse}
    (hbuilt : buildProposal signer channelId s.request p.headers = .ok built headers)
    (h : s.run signer endpoints channelId wait p = .done (.ok tx) q) : tx.txId = built.txId := by
  rcases run_done_ok h with hrejected | ⟨endorsed, q', hprepared, -, htxId, -⟩
  · obtain ⟨built', headers', signed, responses, hbuilt', -, -, htxId, -⟩ :=
      prepare_rejected hrejected
    rw [hbuilt] at hbuilt'
    cases hbuilt'
    exact htxId
  · obtain ⟨built', headers', signed, h⟩ := prepare_prepared hprepared
    have hbuilt' := h.build
    rw [hbuilt] at hbuilt'
    cases hbuilt'
    exact htxId.trans h.txId

end Submission

end LedgerClient
