import LedgerClient.Proofs.Joining
/-!
# Installing a package

The peers are offered a package one after the other, and what they make of it becomes one report.

* `nextReplies_getElem?`: which reply of a peer is the one to the proposal of its turn.
* `exists_install_eq`, `report_of_inTurn`: an installation reports on what was heard of the peers.
* `Reply.Installs`: the peer has answered in time, with status 200 and a result that can be decoded.
* `InstallReport.Covers`: what a report says about the replies of the peers.
  `installReport_covers`: the report on a list of peers says it.
* `install_covers`: an installation offers one proposal to every peer, and reports on all of them.
-/

namespace LedgerClient

variable {signer : Signer} {peers : List Endorser} {installer : ChaincodeInstaller}
  {registry : PlatformRegistry} {milliseconds : Nat} {p q : Progress} {package : Bytes}

/-! ## Numbers of turns -/

/-- The number of a call among several: how often its node has been called before them, and how
often among those in front of it. -/
theorem numberCalls_getElem? (service : Service) (calls : NodeId → Service → Nat)
    (nodes : List NodeId) (i : Nat) :
    (numberCalls service calls nodes).1[i]? =
      nodes[i]?.map fun node => calls node service + (nodes.take i).count node := by
  induction nodes generalizing calls i with
  | nil => rfl
  | cons first rest ih =>
    rw [numberCalls]
    cases i with
    | zero => rfl
    | succ i =>
      rw [List.getElem?_cons_succ, List.getElem?_cons_succ, ih]
      refine congrArg (Option.map · rest[i]?) (funext fun node => ?_)
      rw [List.take_succ_cons, List.count_cons, countCall]
      by_cases h : node = first
      · subst h
        simp only [true_and, if_true, beq_self_eq_true]
        omega
      · have hne : (first == node) = false := beq_eq_false_iff_ne.2 (Ne.symm h)
        simp [h, hne]

/-- The reply of a peer to the proposal of its turn. -/
def replyInTurn (peers : List Endorser) (p : Progress) (i : Nat) (peer : Endorser) :
    Reply ProposalResponse :=
  peer.reply (p.calls peer.id .endorser + ((peers.take i).map (·.id)).count peer.id)

theorem nextReplies_getElem? (peers : List Endorser) (p : Progress) (i : Nat) :
    (nextReplies peers p)[i]? = peers[i]?.map (replyInTurn peers p i) := by
  rw [nextReplies, numbered, List.getElem?_map, List.zip_eq_zipWith, List.getElem?_zipWith,
    numberCalls_getElem?, List.getElem?_map, ← List.map_take]
  cases peers[i]? with
  | none => rfl
  | some peer => rfl

/-! ## The run -/

/-- The proposal is one to install a package, as the signer makes it. -/
def SignedProposal.Installs (proposal : SignedProposal) (signer : Signer) (package : Bytes) :
    Prop :=
  ∃ built headers headers',
    buildProposal signer "" (.install package) headers = .ok built headers' ∧
      signProposal built.proposal signer = .ok proposal

/-- The report on what was heard of the peers. -/
def reportOn (peers : List Endorser) (milliseconds : Nat) (p : Progress) : InstallReport :=
  installReport ((heardInTurn peers milliseconds p).map fun m =>
    installOutcome m.1.id.address m.2)

theorem install_eq (signer : Signer) (peers : List Endorser) (installer : ChaincodeInstaller)
    (registry : PlatformRegistry) (milliseconds : Nat) :
    install signer peers installer registry milliseconds =
      (liftM (installer.package registry) : Client Bytes) >>= fun package =>
        (liftM (buildProposal signer "" (.install package)) : Client BuiltProposal) >>= fun built =>
        (liftM (signProposal built.proposal signer) : Client SignedProposal) >>= fun signed =>
          inTurn signed milliseconds installOutcome peers >>= fun outcomes =>
            pure (installReport outcomes) := rfl

/-- With a package and a total signer, the peers are offered one proposal in turn. -/
theorem exists_install_eq (hpackage : installer.package registry = .ok package)
    (hne : package ≠ []) (hsigner : signer.Total) (peers : List Endorser) (milliseconds : Nat)
    (p : Progress) :
    ∃ proposal headers, proposal.Installs signer package ∧
      install signer peers installer registry milliseconds p =
        (inTurn proposal milliseconds installOutcome peers { p with headers := headers }).map
          installReport := by
  obtain ⟨built, headers, proposal, hbuild, hsign⟩ := hsigner.exists_proposal
    (show (Request.install package).CompleteOn "" from ⟨nofun, hne⟩) p.headers
  refine ⟨proposal, headers, ⟨built, _, _, hbuild, hsign⟩, ?_⟩
  rw [install_eq, Client.bind_of_ok (Client.lift_done_ok.2 ⟨hpackage, rfl⟩),
    Client.bind_of_ok (Client.issue_done_ok.2 ⟨headers, hbuild, rfl⟩),
    Client.bind_of_ok (Client.lift_done_ok.2 ⟨hsign, rfl⟩), Client.bind_pure_apply]

/-- When all turns have ended, every peer has been offered the proposal, and the report is on what
was heard of the peers. -/
theorem report_of_inTurn {proposal : SignedProposal} {headers : HeaderSource}
    {result : Except ClientError InstallReport}
    (h : (inTurn proposal milliseconds installOutcome peers { p with headers := headers }).map
      installReport = .done result q) :
    result = .ok (reportOn peers milliseconds p) ∧ ∃ turns, q.asked = p.asked ++ turns ∧
      turns.map (fun a => (a.node, a.call)) = peers.map fun e => (e.id, .proposal proposal) := by
  cases hrun : inTurn proposal milliseconds installOutcome peers { p with headers := headers } with
  | stopped q' =>
    rw [hrun] at h
    cases h
  | done result' q' =>
    obtain ⟨rfl, turns, hasked, hturns⟩ := inTurn_done hrun
    rw [hrun] at h
    cases h
    exact ⟨rfl, turns, hasked, hturns⟩

/-! ## One peer -/

/-- The peer has installed: it has answered in time, with status 200 and a result that can be
decoded. -/
def Reply.Installs (reply : Reply ProposalResponse) (milliseconds : Nat)
    (result : InstallChaincodeResult) : Prop :=
  ∃ answer, reply.outcome = .answered answer ∧ reply.delay ≤ milliseconds ∧
    answer.response.status = statusOk ∧
    fromWire InstallChaincodeResult answer.response.payload = .ok result

/-- The outcome of a peer, from its reply alone. -/
def outcomeOf (address : String) (milliseconds : Nat) (reply : Reply ProposalResponse) :
    InstallOutcome :=
  installOutcome address (reply.resultWithin milliseconds (endorsementExpired milliseconds))

variable {address : String} {reply : Reply ProposalResponse} {result : InstallChaincodeResult}

theorem installOutcome_address (address : String) (heard : Except ClientError ProposalResponse) :
    (installOutcome address heard).result.address = address := by
  cases heard with
  | error e => rfl
  | ok answer =>
    simp only [installOutcome]
    split
    · split <;> rfl
    · rfl

theorem installOutcome_installed_iff {heard : Except ClientError ProposalResponse} :
    (installOutcome address heard).installed = some result ↔
      ∃ answer, heard = .ok answer ∧ answer.response.status = statusOk ∧
        fromWire InstallChaincodeResult answer.response.payload = .ok result := by
  cases heard with
  | error e => exact ⟨nofun, fun ⟨_, heq, _⟩ => nomatch heq⟩
  | ok answer =>
    simp only [Except.ok.injEq, exists_eq_left', installOutcome]
    by_cases hstatus : answer.response.status = statusOk
    · rw [if_pos hstatus]
      cases hresult : fromWire InstallChaincodeResult answer.response.payload with
      | error fault => exact ⟨nofun, fun h => nomatch h.2⟩
      | ok r => simp [hstatus]
    · rw [if_neg hstatus]
      exact ⟨nofun, fun h => absurd h.1 hstatus⟩

/-- The status of an outcome is 200 exactly if the peer has installed: what fails gets 500. -/
theorem installOutcome_status_iff (address : String)
    (heard : Except ClientError ProposalResponse) :
    (installOutcome address heard).result.status = statusOk ↔
      ∃ r, (installOutcome address heard).installed = some r := by
  have hfailed : ∀ message, (InstallOutcome.failed address message).result.status = statusOk ↔
      ∃ r, (InstallOutcome.failed address message).installed = some r := fun _ =>
    iff_of_false (by change ¬statusInternalError = statusOk; decide) (fun ⟨_, h⟩ => nomatch h)
  cases heard with
  | error e => exact hfailed _
  | ok answer =>
    simp only [installOutcome]
    split
    · rename_i hstatus
      split
      · exact iff_of_true hstatus ⟨_, rfl⟩
      · exact hfailed _
    · rename_i hstatus
      exact iff_of_false hstatus (fun ⟨_, h⟩ => nomatch h)

theorem outcomeOf_installed_iff :
    (outcomeOf address milliseconds reply).installed = some result ↔
      reply.Installs milliseconds result := by
  rw [outcomeOf, installOutcome_installed_iff]
  refine exists_congr fun answer => ?_
  rw [Reply.resultWithin_eq_ok, and_assoc]

theorem outcomeOf_status_iff :
    (outcomeOf address milliseconds reply).result.status = statusOk ↔
      ∃ result, reply.Installs milliseconds result := by
  rw [outcomeOf, installOutcome_status_iff]
  exact exists_congr fun _ => outcomeOf_installed_iff

/-! ## The report -/

/-- The first of some values with a property comes of the first entry that has such a value. -/
theorem firstWith_filterMap {α β : Type} {P : β → Prop} {f : α → Option β} {l : List α} {b : β} :
    FirstWith P b (l.filterMap f) ↔
      ∃ a, FirstWith (fun a => ∃ b, f a = some b ∧ P b) a l ∧ f a = some b := by
  constructor
  · rintro ⟨before, after, hsplit, hbefore, hb⟩
    obtain ⟨l₁, l₂, rfl, rfl, hl₂⟩ := List.filterMap_eq_append_iff.1 hsplit
    obtain ⟨l₃, a, l₄, rfl, hnone, ha, rfl⟩ := List.filterMap_eq_cons_iff.1 hl₂
    refine ⟨a, ⟨l₁ ++ l₃, l₄, (List.append_assoc _ _ _).symm, ?_, b, ha, hb⟩, ha⟩
    rintro x hx ⟨y, hy, hP⟩
    obtain hx | hx := List.mem_append.1 hx
    · exact hbefore y (List.mem_filterMap.2 ⟨x, hx, hy⟩) hP
    · rw [hnone x hx] at hy
      cases hy
  · rintro ⟨a, ⟨before, after, rfl, hbefore, b', hb', hP⟩, ha⟩
    rw [ha] at hb'
    cases hb'
    refine ⟨before.filterMap f, after.filterMap f, ?_, ?_, hP⟩
    · rw [List.filterMap_append, List.filterMap_cons_some ha]
    · rintro y hy hPy
      obtain ⟨x, hx, hfx⟩ := List.mem_filterMap.1 hy
      exact hbefore x hx ⟨y, hfx, hPy⟩

theorem firstNonEmpty_spec (texts : List String) :
    FirstWith (· ≠ "") (firstNonEmpty texts) texts ∨
      (∀ text ∈ texts, text = "") ∧ firstNonEmpty texts = "" := by
  have hfind : (texts.find? fun s => !s.isEmpty) = texts.find? fun s => decide (s ≠ "") := by
    refine congrArg (List.find? · texts) (funext fun s => ?_)
    rw [Bool.eq_iff_iff, decide_eq_true_iff, Bool.not_eq_true', ← Bool.not_eq_true,
      String.isEmpty_iff]
  rw [firstNonEmpty, hfind]
  cases h : texts.find? fun s => decide (s ≠ "") with
  | none => exact .inr ⟨fun s hs => by simpa using List.find?_eq_none.1 h s hs, rfl⟩
  | some s => exact .inl (find?_eq_some_iff_firstWith.1 h)

/-- The text is the first one, not empty, that the peers with these replies report in a field, or
empty where none of them reports one. -/
def FirstReported (field : InstallChaincodeResult → String)
    (replies : List (Reply ProposalResponse)) (milliseconds : Nat) (text : String) : Prop :=
  (∃ reply result, FirstWith (fun reply => ∃ result, reply.Installs milliseconds result ∧
      field result ≠ "") reply replies ∧ reply.Installs milliseconds result ∧
        field result = text) ∨
    (∀ reply ∈ replies, ∀ result, reply.Installs milliseconds result → field result = "") ∧
      text = ""

/-- What a report says about peers with these replies. -/
structure InstallReport.Covers (report : InstallReport) (peers : List Endorser)
    (replies : List (Reply ProposalResponse)) (milliseconds : Nat) : Prop where
  length_eq : report.results.length = peers.length
  address_eq : report.results.map (·.address) = peers.map (·.id.address)
  entry_eq : ∀ (i : Nat) (peer : Endorser) (reply : Reply ProposalResponse),
    peers[i]? = some peer → replies[i]? = some reply →
    report.results[i]? = some (outcomeOf peer.id.address milliseconds reply).result
  installed_iff : ∀ (i : Nat) (reply : Reply ProposalResponse) (entry : PeerInstallResult),
    replies[i]? = some reply → report.results[i]? = some entry →
    (entry.status = statusOk ↔ ∃ result, reply.Installs milliseconds result)
  all_iff : report.status = statusOk ↔ ∀ entry ∈ report.results, entry.status = statusOk
  some_iff : report.status = statusPartial ↔
    (∃ entry ∈ report.results, entry.status = statusOk) ∧
      ∃ entry ∈ report.results, entry.status ≠ statusOk
  none_iff : report.status = statusInternalError ↔
    ∀ entry ∈ report.results, entry.status ≠ statusOk
  packageId : FirstReported (·.packageId) replies milliseconds report.packageId
  label : FirstReported (·.label) replies milliseconds report.label

/-- The outcomes of peers with these replies. -/
def outcomesOf (peers : List Endorser) (replies : List (Reply ProposalResponse))
    (milliseconds : Nat) : List InstallOutcome :=
  (peers.zip replies).map fun m => outcomeOf m.1.id.address milliseconds m.2

section Report

variable {replies : List (Reply ProposalResponse)}

theorem filterMap_installed_outcomesOf (h : replies.length = peers.length) :
    (outcomesOf peers replies milliseconds).filterMap (·.installed) =
      replies.filterMap fun reply => (outcomeOf "" milliseconds reply).installed := by
  have hinstalled : ∀ (address : String) (reply : Reply ProposalResponse),
      (outcomeOf address milliseconds reply).installed =
        (outcomeOf "" milliseconds reply).installed := fun address reply =>
    Option.ext fun result => outcomeOf_installed_iff.trans outcomeOf_installed_iff.symm
  rw [outcomesOf, List.filterMap_map]
  conv_rhs => rw [← List.map_snd_zip h.le, List.filterMap_map]
  exact List.filterMap_congr fun m _ => hinstalled m.1.id.address m.2

theorem firstReported_firstNonEmpty (field : InstallChaincodeResult → String)
    (replies : List (Reply ProposalResponse)) (milliseconds : Nat) :
    FirstReported field replies milliseconds (firstNonEmpty ((replies.filterMap fun reply =>
      (outcomeOf "" milliseconds reply).installed).map field)) := by
  obtain hfirst | ⟨hall, hempty⟩ := firstNonEmpty_spec ((replies.filterMap fun reply =>
      (outcomeOf "" milliseconds reply).installed).map field)
  · obtain ⟨result, hresult, htext⟩ := firstWith_map.1 hfirst
    obtain ⟨reply, hreply, hinstalled⟩ := firstWith_filterMap.1 hresult
    simp only [outcomeOf_installed_iff] at hreply hinstalled
    exact .inl ⟨reply, result, hreply, hinstalled, htext⟩
  · refine .inr ⟨fun reply hreply result hinstalls => hall _ (List.mem_map_of_mem ?_), hempty⟩
    exact List.mem_filterMap.2 ⟨reply, hreply, outcomeOf_installed_iff.2 hinstalls⟩

/-- The status of a report, by how many of its entries are 200. -/
theorem installReport_status {outcomes : List InstallOutcome}
    (h : ∀ o ∈ outcomes, o.result.status = statusOk ↔ ∃ r, o.installed = some r) :
    let report := installReport outcomes
    (report.status = statusOk ∧ ∀ entry ∈ report.results, entry.status = statusOk) ∨
    (report.status = statusPartial ∧ (∃ entry ∈ report.results, entry.status = statusOk) ∧
      ∃ entry ∈ report.results, entry.status ≠ statusOk) ∨
    (report.status = statusInternalError ∧ ∀ entry ∈ report.results, entry.status ≠ statusOk) := by
  intro report
  have hall : (outcomes.filterMap (·.installed)).length = outcomes.length ↔
      ∀ entry ∈ report.results, entry.status = statusOk := by
    rw [List.length_filterMap_eq_countP, List.countP_eq_length]
    refine Iff.trans ?_ List.forall_mem_map.symm
    exact forall₂_congr fun o ho => Option.isSome_iff_exists.trans (h o ho).symm
  have hnone : (outcomes.filterMap (·.installed)).isEmpty = true ↔
      ∀ entry ∈ report.results, entry.status ≠ statusOk := by
    rw [List.isEmpty_iff, List.filterMap_eq_nil_iff]
    refine Iff.trans (forall₂_congr fun o ho => ?_) List.forall_mem_map.symm
    rw [ne_eq, h o ho, ← Option.isSome_iff_exists, Bool.not_eq_true, Option.isSome_eq_false_iff,
      Option.isNone_iff_eq_none]
  by_cases hok : ∀ entry ∈ report.results, entry.status = statusOk
  · exact .inl ⟨if_pos (hall.2 hok), hok⟩
  · have hstatus : report.status = if (outcomes.filterMap (·.installed)).isEmpty then
        statusInternalError else statusPartial := if_neg (mt hall.1 hok)
    by_cases hfailed : ∀ entry ∈ report.results, entry.status ≠ statusOk
    · exact .inr (.inr ⟨hstatus.trans (if_pos (hnone.2 hfailed)), hfailed⟩)
    · refine .inr (.inl ⟨hstatus.trans (if_neg (mt hnone.1 hfailed)), ?_, ?_⟩)
      · push Not at hfailed
        exact hfailed
      · push Not at hok
        exact hok

/-- The three cases exclude each other where there is an entry, and so each of them is an
equivalence. -/
theorem installReport_status_iff {outcomes : List InstallOutcome} (hne : outcomes ≠ [])
    (h : ∀ o ∈ outcomes, o.result.status = statusOk ↔ ∃ r, o.installed = some r) :
    let report := installReport outcomes
    (report.status = statusOk ↔ ∀ entry ∈ report.results, entry.status = statusOk) ∧
    (report.status = statusPartial ↔ (∃ entry ∈ report.results, entry.status = statusOk) ∧
      ∃ entry ∈ report.results, entry.status ≠ statusOk) ∧
    (report.status = statusInternalError ↔
      ∀ entry ∈ report.results, entry.status ≠ statusOk) := by
  intro report
  obtain ⟨o, ho⟩ := List.exists_mem_of_ne_nil outcomes hne
  have hentry : o.result ∈ report.results := List.mem_map_of_mem ho
  obtain ⟨hs, hall⟩ | ⟨hs, ⟨good, hgood, hok⟩, bad, hbad, hnot⟩ | ⟨hs, hnone⟩ :=
    installReport_status h
  · rw [show report.status = statusOk from hs]
    exact ⟨iff_of_true rfl hall,
      iff_of_false (by decide) fun ⟨_, bad, hbad, hnot⟩ => hnot (hall bad hbad),
      iff_of_false (by decide) fun hnone => hnone _ hentry (hall _ hentry)⟩
  · rw [show report.status = statusPartial from hs]
    exact ⟨iff_of_false (by decide) fun hall => hnot (hall bad hbad),
      iff_of_true rfl ⟨⟨good, hgood, hok⟩, bad, hbad, hnot⟩,
      iff_of_false (by decide) fun hnone => hnone good hgood hok⟩
  · rw [show report.status = statusInternalError from hs]
    exact ⟨iff_of_false (by decide) fun hall => hnone _ hentry (hall _ hentry),
      iff_of_false (by decide) fun ⟨⟨good, hgood, hok⟩, _⟩ => hnone good hgood hok,
      iff_of_true rfl hnone⟩

theorem length_outcomesOf (h : replies.length = peers.length) :
    (outcomesOf peers replies milliseconds).length = peers.length := by
  rw [outcomesOf, List.length_map, List.length_zip, h, Nat.min_self]

theorem outcomesOf_getElem? {i : Nat} {peer : Endorser} {reply : Reply ProposalResponse}
    (hpeer : peers[i]? = some peer) (hreply : replies[i]? = some reply) :
    (outcomesOf peers replies milliseconds)[i]? =
      some (outcomeOf peer.id.address milliseconds reply) := by
  have hzip : (peers.zip replies)[i]? = some (peer, reply) :=
    List.getElem?_zip_eq_some.2 ⟨hpeer, hreply⟩
  rw [outcomesOf, List.getElem?_map, hzip]
  rfl

/-- A report on at least one peer covers the replies of the peers. -/
theorem installReport_covers (hne : peers ≠ []) (hlength : replies.length = peers.length) :
    (installReport (outcomesOf peers replies milliseconds)).Covers peers replies milliseconds := by
  have hnonempty : outcomesOf peers replies milliseconds ≠ [] := by
    rw [← List.length_pos_iff, length_outcomesOf hlength]
    exact List.length_pos_iff.2 hne
  obtain ⟨hall, hsome, hnone⟩ := installReport_status_iff hnonempty
    (List.forall_mem_map.2 fun m _ => installOutcome_status_iff _ _)
  have hentry : ∀ (i : Nat) (peer : Endorser) (reply : Reply ProposalResponse),
      peers[i]? = some peer → replies[i]? = some reply →
      (installReport (outcomesOf peers replies milliseconds)).results[i]? =
        some (outcomeOf peer.id.address milliseconds reply).result := by
    intro i peer reply hpeer hreply
    rw [installReport, List.getElem?_map, outcomesOf_getElem? hpeer hreply]
    rfl
  constructor
  case length_eq => exact (List.length_map _).trans (length_outcomesOf hlength)
  case address_eq =>
    rw [installReport, outcomesOf, List.map_map, List.map_map]
    conv_rhs => rw [← List.map_fst_zip hlength.ge, List.map_map]
    exact List.map_congr_left fun m _ => installOutcome_address _ _
  case entry_eq => exact hentry
  case installed_iff =>
    intro i reply entry hreply hresult
    have hi : i < peers.length := hlength ▸ (List.getElem?_eq_some_iff.1 hreply).1
    rw [hentry i _ reply (List.getElem?_eq_getElem hi) hreply] at hresult
    cases hresult
    exact outcomeOf_status_iff
  case all_iff => exact hall
  case some_iff => exact hsome
  case none_iff => exact hnone
  case packageId =>
    rw [installReport, filterMap_installed_outcomesOf hlength]
    exact firstReported_firstNonEmpty (·.packageId) replies milliseconds
  case label =>
    rw [installReport, filterMap_installed_outcomesOf hlength]
    exact firstReported_firstNonEmpty (·.label) replies milliseconds

theorem reportOn_eq (peers : List Endorser) (milliseconds : Nat) (p : Progress) :
    reportOn peers milliseconds p =
      installReport (outcomesOf peers (nextReplies peers p) milliseconds) := by
  have hzip : peers.zip (nextReplies peers p) =
      (numbered peers p).map fun m => (m.1, m.1.reply m.2) :=
    calc peers.zip (nextReplies peers p)
      _ = ((numbered peers p).map (·.1)).zip (nextReplies peers p) := by rw [map_fst_numbered]
      _ = (numbered peers p).map fun m => (m.1, m.1.reply m.2) := List.zip_map'
  rw [reportOn, outcomesOf, hzip, heardInTurn, List.map_map, List.map_map]
  rfl

end Report

/-! ## The whole installation -/

/-- An installation of a package, by a signer that signs whatever it is given, on at least one peer.

One proposal is made.  Where nothing outside stops the client, the installation ends with a report;
whenever it ends, it ends with that report, and every peer has been offered the proposal, in order.
The entry of a peer is made of its own reply to the proposal of its turn, whatever the other peers
did.  The statuses, the package and its label agree with the entries. -/
theorem install_covers (hpackage : installer.package registry = .ok package) (hne : package ≠ [])
    (hsigner : signer.Total) (hpeers : peers ≠ []) (milliseconds : Nat) (p : Progress) :
    ∃ proposal report replies, proposal.Installs signer package ∧
      (p.limit = none → ∃ q, install signer peers installer registry milliseconds p =
        .done (.ok report) q) ∧
      (∀ result q, install signer peers installer registry milliseconds p = .done result q →
        result = .ok report ∧ ∃ turns, q.asked = p.asked ++ turns ∧
          turns.map (fun a => (a.node, a.call)) =
            peers.map fun e => (e.id, .proposal proposal)) ∧
      (∀ i, replies[i]? = peers[i]?.map (replyInTurn peers p i)) ∧
      report.Covers peers replies milliseconds := by
  obtain ⟨proposal, headers, hproposal, hrun⟩ :=
    exists_install_eq hpackage hne hsigner peers milliseconds p
  refine ⟨proposal, reportOn peers milliseconds p, nextReplies peers p, hproposal, ?_, ?_,
    nextReplies_getElem? peers p, ?_⟩
  · intro hlimit
    obtain ⟨q, hturns⟩ : ∃ q, inTurn proposal milliseconds installOutcome peers
        { p with headers := headers } = .done (.ok ((heardInTurn peers milliseconds
          { p with headers := headers }).map fun m => installOutcome m.1.id.address m.2)) q :=
      exists_inTurn hlimit
    refine ⟨q, ?_⟩
    rw [hrun, hturns]
    rfl
  · intro result q hdone
    exact report_of_inTurn (hrun.symm.trans hdone)
  · rw [reportOn_eq]
    exact installReport_covers hpeers (length_nextReplies peers p)

/-! ### Three peers -/

/-- A peer that never answers. -/
def silentPeer (place : Nat) : Endorser where
  id := ⟨.endorser, place, "peer:7051"⟩
  reply := fun _ => { delay := 0, outcome := .silent }

/-- A peer that installs at once, under an identifier and without a label. -/
def installingPeer (place : Nat) (packageId : String) : Endorser where
  id := ⟨.endorser, place, "peer:7051"⟩
  reply := fun _ => .now ⟨1, ⟨200, "", toWire (⟨packageId, ""⟩ : InstallChaincodeResult)⟩, [], none⟩

/-- The first peer answers 200 with a result that is none, the second one never answers and the
third one installs. -/
theorem install_covers_threePeers :
    let signer := neutralSigner "Org1MSP"
    let peers := [answeringPeer 0 200, silentPeer 1, installingPeer 2 "cc:1"]
    let p : Progress := { headers := ⟨⟨0, 0⟩, 0⟩ }
    (ChaincodeInstaller.bytes [1]).package {} = .ok [1] ∧ signer.Total ∧ peers ≠ [] ∧
      ∃ report q, install signer peers (.bytes [1]) {} 10 p = .done (.ok report) q ∧
        report.status = statusPartial ∧ report.packageId = "cc:1" ∧ report.label = "" := by
  intro signer peers p
  have hsigner : signer.Total := ⟨fun _ => ⟨_, rfl⟩, fun _ => ⟨_, rfl⟩⟩
  have hpackage : (ChaincodeInstaller.bytes [1]).package {} = .ok [1] := rfl
  have hpeers : peers ≠ [] := nofun
  obtain ⟨proposal, report, replies, -, hends, -, hreplies, hcovers⟩ :=
    install_covers hpackage nofun hsigner hpeers 10 p
  let installed : InstallChaincodeResult := ⟨"cc:1", ""⟩
  let first := (answeringPeer 0 200).reply 0
  let second := (silentPeer 1).reply 0
  let third := (installingPeer 2 "cc:1").reply 0
  have hreplies' : replies = [first, second, third] := by
    refine List.ext_getElem? fun i => (hreplies i).trans ?_
    obtain _ | _ | _ | i := i <;> rfl
  subst hreplies'
  have hfirst : ∀ result, ¬first.Installs 10 result := by
    rintro result ⟨answer, hanswer, -, -, hresult⟩
    cases hanswer
    cases hresult
  have hsecond : ∀ result, ¬second.Installs 10 result := fun result ⟨_, hanswer, _⟩ =>
    nomatch hanswer
  have hwire : fromWire InstallChaincodeResult (toWire installed) = .ok installed :=
    fromWire_toWire rfl (Schema.fits_of_length rfl (by decide))
  have hthird : ∀ result, third.Installs 10 result ↔ result = installed := by
    intro result
    constructor
    · rintro ⟨answer, hanswer, -, -, hresult⟩
      cases hanswer
      exact (Except.ok.inj (hwire.symm.trans hresult)).symm
    · rintro rfl
      exact ⟨_, rfl, Nat.zero_le _, rfl, hwire⟩
  have honly : ∀ reply ∈ [first, second, third], ∀ result, reply.Installs 10 result →
      result = installed := by
    intro reply hreply result hinstalls
    simp only [List.mem_cons, List.not_mem_nil, or_false] at hreply
    obtain rfl | rfl | rfl := hreply
    · exact absurd hinstalls (hfirst result)
    · exact absurd hinstalls (hsecond result)
    · exact (hthird result).1 hinstalls
  refine ⟨hpackage, hsigner, hpeers, report, (hends rfl).imp fun q hrun => ⟨hrun, ?_, ?_, ?_⟩⟩
  · have hentry₁ := hcovers.entry_eq 1 (silentPeer 1) second rfl rfl
    have hentry₂ := hcovers.entry_eq 2 (installingPeer 2 "cc:1") third rfl rfl
    refine hcovers.some_iff.2 ⟨⟨_, List.mem_of_getElem? hentry₂, ?_⟩,
      _, List.mem_of_getElem? hentry₁, ?_⟩
    · exact outcomeOf_status_iff.2 ⟨installed, (hthird _).2 rfl⟩
    · exact fun hstatus => (outcomeOf_status_iff.1 hstatus).elim hsecond
  · obtain ⟨reply, result, hfound, hinstalls, htext⟩ | ⟨hnone, -⟩ := hcovers.packageId
    · rw [← htext, honly reply hfound.mem.1 result hinstalls]
    · have hempty := hnone third (by simp) installed ((hthird _).2 rfl)
      exact absurd hempty (by decide)
  · obtain ⟨reply, result, hfound, hinstalls, htext⟩ | ⟨-, hempty⟩ := hcovers.label
    · rw [← htext, honly reply hfound.mem.1 result hinstalls]
    · exact hempty

end LedgerClient
