import LedgerClient.Proofs.Group.History
/-!
# Closing what has been read

A stream is closed between the verdict on it and the report of this verdict, and its group waits for
the close.

* `Stream.Hears`: when reading a stream ends, and with which verdict; the close has no part in it.
* `AlikeButClosing`: two groups that read the same messages and differ in how their streams close.
* `wait_of_closings`: it does not matter whether a close fails, but it matters how long it takes.
  `wait_eq_of_closesAlike`, `wait_ok_iff_hears`: closes of the same length give the same run, and a
  wait succeeds if all verdicts are good and all closes end in time.
* `wait_forgets_verdict`: a peer with a good verdict whose close never ends is not counted.
-/

namespace LedgerClient

/-! ## Streams -/

namespace Stream

variable {s s' : Stream DeliverResponse} {txId lastTx : String} {start read read' t : Nat}
  {v v' : Verdict}

/-- Reading the stream, begun at an instant, ends at another with a verdict; the close is still to
come. -/
def Hears (s : Stream DeliverResponse) (txId lastTx : String) (start read : Nat) (v : Verdict) :
    Prop :=
  Reads txId s.node.address lastTx s.ended start s.receiving read v

/-- The streams differ at most in how their close goes. -/
def AlikeButClosing (s s' : Stream DeliverResponse) : Prop :=
  s' = { s with closing := s'.closing }

/-- The closes of the streams take the same time.  One of them may fail and the other not. -/
def ClosesAlike (s s' : Stream DeliverResponse) : Prop :=
  ∀ begun t, s.Closes begun t ↔ s'.Closes begun t

theorem AlikeButClosing.hears_iff (h : s.AlikeButClosing s') :
    s'.Hears txId lastTx start read v ↔ s.Hears txId lastTx start read v := by
  rw [h]
  rfl

/-- Reading ends in one way.  A task whose close takes no time ends with it. -/
theorem Hears.unique (h : s.Hears txId lastTx start read v)
    (h' : s.Hears txId lastTx start read' v') : read = read' ∧ v.result = v'.result := by
  let prompt : Stream DeliverResponse := { s with closing := .now () }
  have hends : ∀ {read v}, s.Hears txId lastTx start read v →
      (readTask txId lastTx prompt start s.receiving).ending = some (read, v.result) :=
    fun {read _} hears => readTask_ending_iff.2 ⟨read, _, hears, rfl, .ok (), rfl⟩
  have heq := Option.some.inj ((hends h).symm.trans (hends h'))
  exact ⟨congrArg Prod.fst heq, congrArg Prod.snd heq⟩

end Stream

section Tasks

variable {s s' : Stream DeliverResponse} (txId lastTx : String)

theorem closeTask_eq_of_closesAlike (h : s.ClosesAlike s') (node : NodeId) (begun : Nat)
    (result : Except ClientError Unit) :
    closeTask node s'.closing begun result = closeTask node s.closing begun result := by
  have hending : (s'.closing.ending? begun).map (fun ending => (ending.1, result)) =
      (s.closing.ending? begun).map fun ending => (ending.1, result) := by
    refine Option.ext fun ⟨t, r⟩ => ?_
    have hclose : ∀ x : Stream DeliverResponse,
        (x.closing.ending? begun).map (fun ending => (ending.1, result)) = some (t, r) ↔
          r = result ∧ x.Closes begun t := fun x => closeTask_ending_iff (s := x)
    rw [hclose, hclose, h begun t]
  exact congrArg (Task.mk _) hending

/-- The close enters into the task of a stream with its length only. -/
theorem readTask_eq_of_closesAlike (halike : s.AlikeButClosing s') (h : s.ClosesAlike s')
    (start : Nat) (rest : List (Reply (String → DeliverResponse))) :
    readTask txId lastTx s' start rest = readTask txId lastTx s start rest := by
  have hclose := closeTask_eq_of_closesAlike h
  have hnode : s'.node = s.node := by rw [halike]
  have hended : s'.ended = s.ended := by rw [halike]
  induction rest generalizing start with
  | nil => simp only [readTask, hnode, hended, hclose]
  | cons r rest ih => simp only [readTask, hnode, hclose, ih]

end Tasks

/-! ## Groups -/

namespace DeliverGroup

variable {g g' : DeliverGroup} {p : Progress} {milliseconds : Nat}

/-- The groups wait for the same transaction on streams that differ at most in how their closes
go. -/
structure AlikeButClosing (g g' : DeliverGroup) : Prop where
  txId : g'.txId = g.txId
  confirmed : g'.confirmed = g.confirmed
  streams : g.streams.Forall₂ Stream.AlikeButClosing g'.streams

/-- Every stream has a good verdict to report. -/
def HearsValid (g : DeliverGroup) (p : Progress) : Prop :=
  ∀ s ∈ g.streams, ∃ read, s.Hears g.txId p.lastTx p.clock read .valid

/-- Every stream on which reading ends is closed before a deadline. -/
def ClosesBefore (g : DeliverGroup) (p : Progress) (deadline : Nat) : Prop :=
  ∀ s ∈ g.streams, ∀ read v, s.Hears g.txId p.lastTx p.clock read v →
    ∃ t < deadline, s.Closes read t

/-- Both groups have good verdicts to report, or none of them. -/
theorem AlikeButClosing.hearsValid_iff (h : g.AlikeButClosing g') :
    g'.HearsValid p ↔ g.HearsValid p := by
  have hstreams := h.streams
  rw [HearsValid, HearsValid, h.txId]
  generalize g.streams = streams, g'.streams = streams' at hstreams
  induction hstreams with
  | nil => exact Iff.rfl
  | cons hs _ ih =>
    rw [List.forall_mem_cons, List.forall_mem_cons]
    exact and_congr (exists_congr fun _ => hs.hears_iff) ih

/-- Closes of the same length give the same run, whether they fail or not. -/
theorem wait_eq_of_closesAlike (h : g.AlikeButClosing g')
    (hcloses : g.streams.Forall₂ Stream.ClosesAlike g'.streams) :
    (g'.wait milliseconds p).2 = (g.wait milliseconds p).2 ∧
      (g'.wait milliseconds p).1.confirmed = (g.wait milliseconds p).1.confirmed := by
  have htasks : g'.streams.map (confirmTask g.txId p.lastTx p.clock) =
      g.streams.map (confirmTask g.txId p.lastTx p.clock) := by
    have hstreams := h.streams
    generalize g.streams = streams, g'.streams = streams' at hstreams hcloses
    induction hstreams with
    | nil => rfl
    | cons hs _ ih =>
      obtain ⟨hclose, hcloses⟩ := List.forall₂_cons.1 hcloses
      rw [List.map_cons, List.map_cons, ih hcloses]
      refine congrArg (· :: _) ?_
      rw [confirmTask, confirmTask, readTask_eq_of_closesAlike _ _ hs hclose, hs]
  have hwaiting : g'.waiting milliseconds p = g.waiting milliseconds p := by
    rw [waiting, waiting, expired, expired, h.txId, htasks]
  rw [wait_run, wait_run, wait, wait, hwaiting, h.confirmed]
  exact ⟨rfl, rfl⟩

/-- A wait succeeds exactly if every stream has a good verdict, which its close has no part in, and
every close ends in time. -/
theorem wait_ok_iff_hears (hreach : p.Reaches (p.clock + milliseconds)) :
    (g.wait milliseconds p).2.result? = some (.ok ()) ↔
      g.HearsValid p ∧ g.ClosesBefore p (p.clock + milliseconds) := by
  rw [(g.wait_firstFailureWins hreach).succeeds_iff]
  constructor
  · intro hall
    refine ⟨fun s hs => ?_, fun s hs read v hears => ?_⟩
    · obtain ⟨_, -, hends⟩ := hall s hs
      obtain ⟨read, hears, -⟩ := streamEnds_ok.1 hends
      exact ⟨read, hears⟩
    · obtain ⟨t, hlt, hends⟩ := hall s hs
      obtain ⟨read', hears', hcloses⟩ := streamEnds_ok.1 hends
      obtain ⟨rfl, -⟩ := Stream.Hears.unique hears hears'
      exact ⟨t, hlt, hcloses⟩
  · rintro ⟨hvalid, hcloses⟩ s hs
    obtain ⟨read, hears⟩ := hvalid s hs
    obtain ⟨t, hlt, hclosed⟩ := hcloses s hs read .valid hears
    exact ⟨t, hlt, streamEnds_ok.2 ⟨read, hears, hclosed⟩⟩

/-- A failure that is reported in time is the result unless another one is reported by then. -/
theorem wait_fails_of_first (hreach : p.Reaches (p.clock + milliseconds))
    {s : Stream DeliverResponse} (hs : s ∈ g.streams) {t : Nat} {e : ClientError}
    (hlt : t < p.clock + milliseconds) (hends : g.StreamEnds p s t (.error e))
    (hfirst : ∀ s' ∈ g.streams, ∀ t' ≤ t, ∀ e', g.StreamEnds p s' t' (.error e') → e' = e) :
    (g.wait milliseconds p).2.result? = some (.error e) := by
  obtain ⟨s', hs', t', -, e', hends', hle, hresult⟩ :=
    (g.wait_firstFailureWins hreach).fails ⟨s, hs, t, hlt, e, hends⟩
  rw [hresult, hfirst s' hs' t' (hle s hs t e hends) e' hends']

open Classical in
/-- A wait counts the streams with a good verdict that are closed when it ends. -/
theorem wait_confirmed_eq_countP (g : DeliverGroup) (milliseconds : Nat) (p : Progress) :
    (g.wait milliseconds p).1.confirmed = g.confirmed + g.streams.countP fun s =>
      ∃ read t, s.Hears g.txId p.lastTx p.clock read .valid ∧ s.Closes read t ∧
        t < (g.waiting milliseconds p).group.horizon := by
  have hcount : (g.waiting milliseconds p).group.results.length = g.streams.countP fun s =>
      (confirmTask g.txId p.lastTx p.clock s).SucceedsBefore
        (g.waiting milliseconds p).group.horizon := by
    refine (Task.length_race_results_eq_countP _ _ _).trans ?_
    rw [List.countP_map]
    rfl
  refine congrArg (g.confirmed + ·) (hcount.trans (List.countP_congr fun s _ => ?_))
  rw [decide_eq_true_eq, decide_eq_true_eq, Task.SucceedsBefore]
  constructor
  · rintro ⟨t, _, hend, hlt⟩
    obtain ⟨read, hears, hcloses⟩ := streamEnds_ok.1 ((streamEnds_iff s t _).2 ⟨_, hend, rfl⟩)
    exact ⟨read, t, hears, hcloses, hlt⟩
  · rintro ⟨read, t, hears, hcloses, hlt⟩
    obtain ⟨r, hend, hr⟩ := (streamEnds_iff s t _).1 (streamEnds_ok.2 ⟨read, hears, hcloses⟩)
    obtain ⟨_, rfl⟩ := map_unit_eq_ok.1 hr
    exact ⟨t, _, hend, hlt⟩

open Classical in
/-- What the closes of its streams do to a wait, for two groups that read the same messages.

It does not matter whether a close fails: with closes of the same length the runs are the same.  But
the verdicts wait for the closes.  A wait succeeds exactly if every stream has a good verdict, which
is the same for both groups, and every close ends in time.  In any case it counts the streams with a
good verdict that are closed when it ends, and a failure is its result if the stream that has it is
closed in time and before the others that fail. -/
theorem wait_of_closings (h : g.AlikeButClosing g') (hreach : p.Reaches (p.clock + milliseconds)) :
    let deadline := p.clock + milliseconds
    let horizon := (g'.waiting milliseconds p).group.horizon
    (g.streams.Forall₂ Stream.ClosesAlike g'.streams →
      (g'.wait milliseconds p).2 = (g.wait milliseconds p).2 ∧
      (g'.wait milliseconds p).1.confirmed = (g.wait milliseconds p).1.confirmed) ∧
    ((g'.wait milliseconds p).2.result? = some (.ok ()) ↔
      g.HearsValid p ∧ g'.ClosesBefore p deadline) ∧
    ((g'.wait milliseconds p).2.result? = some (.ok ()) →
      (g'.wait milliseconds p).1.confirmed = g.confirmed + g.streams.length) ∧
    ((g'.wait milliseconds p).1.confirmed = g.confirmed + g'.streams.countP fun s =>
      ∃ read t, s.Hears g.txId p.lastTx p.clock read .valid ∧ s.Closes read t ∧ t < horizon) ∧
    ∀ s ∈ g'.streams, ∀ read t v e, s.Hears g.txId p.lastTx p.clock read v → v.result = .error e →
      s.Closes read t → t < deadline →
      (∀ s' ∈ g'.streams, ∀ t' ≤ t, ∀ e', g'.StreamEnds p s' t' (.error e') → e' = e) →
      (g'.wait milliseconds p).2.result? = some (.error e) := by
  intro deadline horizon
  refine ⟨wait_eq_of_closesAlike h, ?_, fun hok => ?_, ?_, ?_⟩
  · rw [wait_ok_iff_hears hreach, h.hearsValid_iff]
  · obtain ⟨q, hq⟩ := run_of_result? hok
    rw [wait_confirmed hq, h.confirmed, h.streams.length_eq]
  · rw [wait_confirmed_eq_countP, h.confirmed, h.txId]
  · intro s hs read t v e hears hv hcloses hlt hfirst
    rw [← h.txId] at hears
    exact wait_fails_of_first hreach hs hlt ⟨v, ⟨read, hears, hcloses⟩, hv⟩ hfirst

end DeliverGroup

/-! ### Slow closes -/

/-- The peer that reports the transaction as valid, and whose stream closes as given. -/
def closingPeer (closing : Reply Unit) : DeliverPeer :=
  { steadyPeer with session := fun number => { steadyPeer.session number with closing := closing } }

/-- Its group, connected. -/
def closingGroup (closing : Reply Unit) : DeliverGroup :=
  (groupOf (closingPeer closing)).after [firstConnect]

theorem closingGroup_streams (closing : Reply Unit) :
    (closingGroup closing).streams =
      [.ofSession steadyPeer.id ((closingPeer closing).session 0)] := rfl

theorem closingGroup_alike (closing closing' : Reply Unit) :
    (closingGroup closing).AlikeButClosing (closingGroup closing') where
  txId := rfl
  confirmed := rfl
  streams := by
    rw [closingGroup_streams, closingGroup_streams]
    exact .cons rfl .nil

/-- The progress when the group waits: its transaction has been ordered last. -/
def closingStart : Progress := { headers := epoch, clock := 2, lastTx := "tx" }

/-- A close that fails after three milliseconds leaves the verdict of the peer as it is. -/
theorem wait_of_closings_failingClose :
    let g := closingGroup (.now ())
    let g' := closingGroup { delay := 3, outcome := .failed (.transport "peer0:7051" "gone") }
    g.AlikeButClosing g' ∧ closingStart.Reaches (closingStart.clock + 10) ∧
      (g'.wait 10 closingStart).2.result? = some (.ok ()) ∧
      (g'.wait 10 closingStart).1.confirmed = 1 := by
  intro g g'
  have halike : g.AlikeButClosing g' := closingGroup_alike _ _
  have hreach : closingStart.Reaches (closingStart.clock + 10) := rfl
  have hears : ∀ closing : Reply Unit, (Stream.ofSession steadyPeer.id
      ((closingPeer closing).session 0)).Hears "tx" "tx" 2 4 .valid :=
    fun _ => .decided rfl (.valid rfl rfl)
  have hvalid : g.HearsValid closingStart := by
    rw [DeliverGroup.HearsValid, closingGroup_streams, List.forall_mem_singleton]
    exact ⟨4, hears _⟩
  have hcloses : g'.ClosesBefore closingStart (closingStart.clock + 10) := by
    rw [DeliverGroup.ClosesBefore, closingGroup_streams, List.forall_mem_singleton]
    intro read v hears'
    obtain ⟨rfl, -⟩ := (hears _).unique hears'
    exact ⟨7, by decide, _, rfl⟩
  obtain ⟨-, hok, hconfirmed, -⟩ := DeliverGroup.wait_of_closings halike hreach
  have hdone := hok.2 ⟨hvalid, hcloses⟩
  exact ⟨halike, hreach, hdone, hconfirmed hdone⟩

/-- The peer has reported the transaction as valid in time in both runs.  A group whose stream does
not finish closing expires, and has not counted the peer. -/
theorem wait_forgets_verdict :
    let g := closingGroup (.now ())
    let g' := closingGroup { outcome := .silent }
    g.AlikeButClosing g' ∧
      (g.wait 10 closingStart).2.result? = some (.ok ()) ∧
      (g.wait 10 closingStart).1.confirmed = 1 ∧
      (g'.wait 10 closingStart).2.result? =
        some (.error (.deliverTimeout .wait "tx" 10)) ∧
      (g'.wait 10 closingStart).1.confirmed = 0 := by
  intro g g'
  refine ⟨closingGroup_alike _ _, ?_, ?_, ?_, ?_⟩
  all_goals decide +kernel

end LedgerClient
