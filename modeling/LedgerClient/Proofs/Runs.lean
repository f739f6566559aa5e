import LedgerClient.Network.Stream
import LedgerClient.Network.Tasks
import LedgerClient.Proofs.Timeline
/-!
# Runs of the client

How a run comes apart into the runs of its parts, and what it adds to the record
of the calls.

* `bind_done_ok`, `bind_done_error`: a run that ends has gone through its first
  part, and the second part goes on from there.
* `AsksOnly allowed x`: `x` keeps what has been asked and adds allowed calls only.
  This is kept by every way of putting computations together.
* `await_done_ok`, `within_done_ok`, `awaitFan_done_ok` and their companions say
  what waiting, a deadline and a fan of tasks leave behind.
-/

namespace LedgerClient

variable {α β : Type}

namespace Reply

theorem ending?_eq_some {r : Reply α} {start t : Nat}
    {result : Except ClientError α} :
    r.ending? start = some (t, result) ↔
      t = start + r.delay ∧
        ((∃ a, r.outcome = .answered a ∧ result = .ok a) ∨
          ∃ e, r.outcome = .failed e ∧ result = .error e) := by
  rw [Reply.ending?]
  cases r.outcome with
  | answered a =>
    constructor
    · intro h
      cases h
      exact ⟨rfl, .inl ⟨a, rfl, rfl⟩⟩
    · rintro ⟨rfl, ⟨b, hb, rfl⟩ | ⟨e, he, -⟩⟩
      · cases hb
        rfl
      · cases he
  | failed e =>
    constructor
    · intro h
      cases h
      exact ⟨rfl, .inr ⟨e, rfl, rfl⟩⟩
    · rintro ⟨rfl, ⟨b, hb, -⟩ | ⟨e', he, rfl⟩⟩
      · cases hb
      · cases he
        rfl
  | silent =>
    constructor
    · intro h
      cases h
    · rintro ⟨-, ⟨b, hb, -⟩ | ⟨e, he, -⟩⟩
      · cases hb
      · cases he

theorem ending?_eq_ok {r : Reply α} {start t : Nat} {a : α} :
    r.ending? start = some (t, .ok a) ↔ r.outcome = .answered a ∧ t = start + r.delay := by
  rw [ending?_eq_some]
  constructor
  · rintro ⟨ht, ⟨b, hb, h⟩ | ⟨e, -, h⟩⟩
    · cases h
      exact ⟨hb, ht⟩
    · cases h
  · rintro ⟨ha, ht⟩
    exact ⟨ht, .inl ⟨a, ha, rfl⟩⟩

theorem ending?_eq_error {r : Reply α} {start t : Nat} {e : ClientError} :
    r.ending? start = some (t, .error e) ↔ r.outcome = .failed e ∧ t = start + r.delay := by
  rw [ending?_eq_some]
  constructor
  · rintro ⟨ht, ⟨b, -, h⟩ | ⟨e', he, h⟩⟩
    · cases h
    · cases h
      exact ⟨he, ht⟩
  · rintro ⟨he, ht⟩
    exact ⟨ht, .inr ⟨e, he, rfl⟩⟩

end Reply

namespace Run

def progress : Run α → Progress
  | .done _ p => p
  | .stopped p => p

/-- The result of a run that was not stopped. -/
def result? : Run α → Option (Except ClientError α)
  | .done r _ => some r
  | .stopped _ => none

/-- The value of a run that has succeeded. -/
def value? : Run α → Option α
  | .done (.ok a) _ => some a
  | _ => none

theorem done_ok_of_value? {run : Run α} (h : run.value?.isSome = true) :
    ∃ a q, run = .done (.ok a) q := by
  cases run with
  | done r q =>
    cases r with
    | ok a => exact ⟨a, q, rfl⟩
    | error e => cases h
  | stopped q => cases h

/-- The failure of a run that has failed. -/
def failure? : Run α → Option ClientError
  | .done (.error e) _ => some e
  | _ => none

theorem done_error_of_failure? {run : Run α} {e : ClientError} (h : run.failure? = some e) :
    ∃ q, run = .done (.error e) q := by
  cases run with
  | done r q =>
    cases r with
    | ok a => cases h
    | error e' =>
      cases h
      exact ⟨q, rfl⟩
  | stopped q => cases h

@[simp] theorem progress_map (f : α → β) (run : Run α) : (run.map f).progress = run.progress := by
  cases run <;> rfl

theorem map_map {γ : Type} (f : α → β) (g : β → γ) (run : Run α) :
    (run.map f).map g = run.map fun a => g (f a) := by
  cases run with
  | done r p => cases r <;> rfl
  | stopped p => rfl

theorem map_done_ok {f : α → β} {run : Run α} {b : β} {q : Progress} :
    run.map f = .done (.ok b) q ↔ ∃ a, run = .done (.ok a) q ∧ f a = b := by
  constructor
  · intro h
    cases run with
    | done r p =>
      cases r with
      | ok a => cases h; exact ⟨a, rfl, rfl⟩
      | error e => cases h
    | stopped p => cases h
  · rintro ⟨a, rfl, rfl⟩
    rfl

theorem map_done_error {f : α → β} {run : Run α} {e : ClientError} {q : Progress} :
    run.map f = .done (.error e) q ↔ run = .done (.error e) q := by
  constructor
  · intro h
    cases run with
    | done r p =>
      cases r with
      | ok a => cases h
      | error e => cases h; rfl
    | stopped p => cases h
  · rintro rfl
    rfl

end Run

namespace Progress

/-- Nothing outside stops a computation before an instant. -/
def Reaches (p : Progress) (instant : Nat) : Prop := p.before instant = instant

instance (p : Progress) (instant : Nat) : Decidable (p.Reaches instant) :=
  inferInstanceAs (Decidable (_ = _))

theorem before_le (p : Progress) (deadline : Nat) : p.before deadline ≤ deadline := by
  rw [before]
  split
  · exact Nat.min_le_right _ _
  · exact le_rfl

theorem reaches_of_limit_none {p : Progress} (h : p.limit = none) (instant : Nat) :
    p.Reaches instant := by
  rw [Reaches, before, h]

theorem reaches_iff {p : Progress} {instant : Nat} :
    p.Reaches instant ↔ ∀ limit, p.limit = some limit → instant ≤ limit := by
  rw [Reaches, before]
  cases h : p.limit with
  | none => simp
  | some limit =>
    simp only [Option.some.injEq, forall_eq']
    omega

theorem reaches_congr {p q : Progress} (h : q.limit = p.limit) {instant : Nat} :
    q.Reaches instant ↔ p.Reaches instant := by
  rw [Reaches, Reaches, before, before, h]

/-- Inside a deadline an instant is reached if it lies before both the deadline and the limit
outside. -/
theorem reaches_within {p : Progress} {deadline instant : Nat} :
    { p with limit := some (p.before deadline) }.Reaches instant ↔
      instant ≤ deadline ∧ p.Reaches instant := by
  rw [reaches_iff, reaches_iff]
  simp only [Option.some.injEq, forall_eq', before]
  cases h : p.limit with
  | none => simp
  | some limit =>
    simp only [Option.some.injEq, forall_eq']
    omega

theorem Reaches.mono {p : Progress} {instant earlier : Nat} (h : p.Reaches instant)
    (hle : earlier ≤ instant) : p.Reaches earlier :=
  reaches_iff.2 fun limit hl => hle.trans (reaches_iff.1 h limit hl)

/-- A computation that is stopped before an instant does not get further for a later one. -/
theorem before_of_not_reaches {p : Progress} {instant later : Nat} (h : ¬p.Reaches instant)
    (hle : instant ≤ later) : p.before later = p.before instant := by
  rw [Reaches, before] at h
  rw [before, before]
  cases hl : p.limit with
  | none =>
    rw [hl] at h
    exact absurd rfl h
  | some limit =>
    rw [hl] at h
    dsimp only at h ⊢
    omega

end Progress

theorem Progress.le_before_iff {p : Progress} {instant deadline : Nat} :
    instant ≤ p.before deadline ↔ instant ≤ deadline ∧ p.Reaches instant := by
  rw [reaches_iff, before]
  cases p.limit with
  | none => simp
  | some limit =>
    simp only [Option.some.injEq, forall_eq']
    omega

/-! ## Numbers of calls -/

/-- `q` has the limit of `p`, and the counts of all services but one. -/
structure Progress.Keeps (p : Progress) (service : Service) (q : Progress) : Prop where
  limit : q.limit = p.limit
  calls : ∀ node other, other ≠ service → q.calls node other = p.calls node other

theorem length_numberCalls (service : Service) (calls : NodeId → Service → Nat)
    (nodes : List NodeId) : (numberCalls service calls nodes).1.length = nodes.length := by
  induction nodes generalizing calls with
  | nil => rfl
  | cons node rest ih => rw [numberCalls, List.length_cons, List.length_cons, ih]

theorem countCall_other {service other : Service} (h : other ≠ service)
    (calls : NodeId → Service → Nat) (called node : NodeId) :
    countCall calls called service node other = calls node other := by
  rw [countCall, if_neg fun hn => h hn.2]

/-- Calls of one service leave the counts of the others alone. -/
theorem numberCalls_other {service other : Service} (h : other ≠ service)
    (calls : NodeId → Service → Nat) (nodes : List NodeId) (node : NodeId) :
    (numberCalls service calls nodes).2 node other = calls node other := by
  induction nodes generalizing calls with
  | nil => rfl
  | cons first rest ih =>
    rw [numberCalls]
    dsimp only
    rw [ih, countCall_other h]

/-- The numbers of calls depend on the counts of their own service only. -/
theorem numberCalls_congr {service : Service} {calls calls' : NodeId → Service → Nat}
    (h : ∀ node, calls node service = calls' node service) (nodes : List NodeId) :
    (numberCalls service calls nodes).1 = (numberCalls service calls' nodes).1 := by
  induction nodes generalizing calls calls' with
  | nil => rfl
  | cons first rest ih =>
    rw [numberCalls, numberCalls]
    refine congrArg₂ List.cons (h first) (ih fun node => ?_)
    rw [countCall, countCall, h node]

namespace Client

/-! ## Parts of a run -/

theorem bind_of_ok {x : Client α} {f : α → Client β} {p q : Progress} {a : α}
    (h : x p = .done (.ok a) q) : (x >>= f) p = f a q := by
  change andThen x f p = f a q
  rw [andThen, h]

theorem bind_of_error {x : Client α} {f : α → Client β} {p q : Progress} {e : ClientError}
    (h : x p = .done (.error e) q) : (x >>= f) p = .done (.error e) q := by
  change andThen x f p = .done (.error e) q
  rw [andThen, h]

theorem bind_of_stopped {x : Client α} {f : α → Client β} {p q : Progress}
    (h : x p = .stopped q) : (x >>= f) p = .stopped q := by
  change andThen x f p = .stopped q
  rw [andThen, h]

theorem bind_done_ok {x : Client α} {f : α → Client β} {p q : Progress} {b : β} :
    (x >>= f) p = .done (.ok b) q ↔
      ∃ a r, x p = .done (.ok a) r ∧ f a r = .done (.ok b) q := by
  constructor
  · intro h
    cases hx : x p with
    | done result r =>
      cases result with
      | ok a => exact ⟨a, r, rfl, by rw [← h, bind_of_ok hx]⟩
      | error e => rw [bind_of_error hx] at h; cases h
    | stopped r => rw [bind_of_stopped hx] at h; cases h
  · rintro ⟨a, r, hx, hf⟩
    rw [bind_of_ok hx, hf]

theorem bind_done_error {x : Client α} {f : α → Client β} {p q : Progress} {e : ClientError} :
    (x >>= f) p = .done (.error e) q ↔
      x p = .done (.error e) q ∨
        ∃ a r, x p = .done (.ok a) r ∧ f a r = .done (.error e) q := by
  constructor
  · intro h
    cases hx : x p with
    | done result r =>
      cases result with
      | ok a => exact .inr ⟨a, r, rfl, by rw [← h, bind_of_ok hx]⟩
      | error e' =>
        rw [bind_of_error hx] at h
        cases h
        exact .inl rfl
    | stopped r => rw [bind_of_stopped hx] at h; cases h
  · rintro (hx | ⟨a, r, hx, hf⟩)
    · exact bind_of_error hx
    · rw [bind_of_ok hx, hf]

/-- What follows a computation only forms its value anew. -/
theorem bind_pure_apply (x : Client α) (f : α → β) (p : Progress) :
    (x >>= fun a => pure (f a)) p = (x p).map f := by
  cases h : x p with
  | done r q =>
    cases r with
    | ok a => exact bind_of_ok h
    | error e => exact bind_of_error h
  | stopped q => exact bind_of_stopped h

theorem lift_apply (r : Except ClientError α) (p : Progress) :
    (liftM r : Client α) p = .done r p := rfl

theorem issue_done_ok {x : Issuing α} {p q : Progress} {a : α} :
    (liftM x : Client α) p = .done (.ok a) q ↔
      ∃ headers, x p.headers = .ok a headers ∧ q = { p with headers := headers } := by
  change issue x p = _ ↔ _
  rw [issue]
  cases x p.headers with
  | ok b headers =>
    constructor
    · intro h
      cases h
      exact ⟨headers, rfl, rfl⟩
    · rintro ⟨_, h, rfl⟩
      cases h
      rfl
  | error e headers => exact ⟨fun h => (nomatch h), fun ⟨_, h, _⟩ => (nomatch h)⟩

theorem issue_done_error {x : Issuing α} {p q : Progress} {e : ClientError} :
    (liftM x : Client α) p = .done (.error e) q ↔
      ∃ headers, x p.headers = .error e headers ∧ q = { p with headers := headers } := by
  change issue x p = _ ↔ _
  rw [issue]
  cases x p.headers with
  | ok b headers => exact ⟨fun h => (nomatch h), fun ⟨_, h, _⟩ => (nomatch h)⟩
  | error e headers =>
    constructor
    · intro h
      cases h
      exact ⟨headers, rfl, rfl⟩
    · rintro ⟨_, h, rfl⟩
      cases h
      rfl

theorem lift_done_ok {r : Except ClientError α} {p q : Progress} {a : α} :
    (liftM r : Client α) p = .done (.ok a) q ↔ r = .ok a ∧ q = p := by
  rw [lift_apply]
  constructor
  · intro h
    cases h
    exact ⟨rfl, rfl⟩
  · rintro ⟨rfl, rfl⟩
    rfl

/-- Two steps after a computation may be taken together. -/
theorem bind_assoc {γ : Type} (x : Client α) (f : α → Client β) (g : β → Client γ) :
    x >>= f >>= g = x >>= fun a => f a >>= g := by
  funext p
  cases h : x p with
  | done r q =>
    cases r with
    | ok a =>
      rw [bind_of_ok (f := fun a => f a >>= g) h]
      cases hf : f a q with
      | done r q' =>
        have hbind := (bind_of_ok (f := f) h).trans hf
        cases r with
        | ok b => rw [bind_of_ok hbind, bind_of_ok hf]
        | error e => rw [bind_of_error hbind, bind_of_error hf]
      | stopped q' =>
        have hbind := (bind_of_ok (f := f) h).trans hf
        rw [bind_of_stopped hbind, bind_of_stopped hf]
    | error e => rw [bind_of_error h, bind_of_error (bind_of_error h)]
  | stopped q => rw [bind_of_stopped h, bind_of_stopped (bind_of_stopped h)]

instance : LawfulMonad Client := LawfulMonad.mk' Client
  (fun x => by
    funext p
    rw [show id <$> x = x >>= fun a => pure (id a) from rfl, bind_pure_apply]
    cases x p with
    | done r q => cases r <;> rfl
    | stopped q => rfl)
  (fun _ _ => rfl)
  bind_assoc

theorem attempt_apply (x : Client α) (p : Progress) :
    attempt x p = match x p with
      | .done r q => .done (.ok r) q
      | .stopped q => .stopped q := rfl

/-- What follows an attempt goes on from its end, whatever came of it. -/
theorem attempt_bind_done {x : Client α} {f : Except ClientError α → Client β} {p q : Progress}
    {r : Except ClientError β} :
    (attempt x >>= f) p = .done r q ↔ ∃ r' q', x p = .done r' q' ∧ f r' q' = .done r q := by
  cases hx : x p with
  | done r' q' =>
    have hattempt : attempt x p = .done (.ok r') q' := by rw [attempt_apply, hx]
    rw [bind_of_ok hattempt]
    constructor
    · intro h
      exact ⟨r', q', rfl, h⟩
    · rintro ⟨_, _, h, hf⟩
      cases h
      exact hf
  | stopped q' =>
    have hattempt : attempt x p = .stopped q' := by rw [attempt_apply, hx]
    rw [bind_of_stopped hattempt]
    exact ⟨fun h => (nomatch h), fun ⟨_, _, h, _⟩ => (nomatch h)⟩

theorem note_apply (node : NodeId) (call : Call) (p : Progress) :
    note node call p = .done (.ok ()) { p with asked := p.asked ++ [⟨p.clock, node, call⟩] } := rfl

/-! ## Waiting -/

theorem passTo_apply (instant : Nat) (p : Progress) :
    passTo instant p =
      if p.Reaches instant then .done (.ok ()) { p with clock := instant }
      else .stopped { p with clock := p.before instant } := by
  rw [passTo]
  cases h : p.limit with
  | none => rw [if_pos (Progress.reaches_of_limit_none h instant)]
  | some limit =>
    simp only [Progress.reaches_iff, h, Option.some.injEq, forall_eq', Progress.before]
    by_cases hlt : limit < instant
    · rw [if_pos hlt, if_neg (Nat.not_le.2 hlt), Nat.min_eq_left hlt.le]
    · rw [if_neg hlt, if_pos (Nat.not_lt.1 hlt)]

theorem await_of_reaches {r : Reply α} {p : Progress} (h : p.Reaches (p.clock + r.delay)) :
    await r p = match r.outcome with
      | .answered a => .done (.ok a) { p with clock := p.clock + r.delay }
      | .failed e => .done (.error e) { p with clock := p.clock + r.delay }
      | .silent => never { p with clock := p.clock + r.delay } := by
  have hpass : passTo (p.clock + r.delay) p =
      .done (.ok ()) { p with clock := p.clock + r.delay } := by
    rw [passTo_apply, if_pos h]
  change andThen (passTo (p.clock + r.delay)) _ p = _
  rw [andThen, hpass]
  cases r.outcome <;> rfl

theorem await_of_not_reaches {r : Reply α} {p : Progress}
    (h : ¬p.Reaches (p.clock + r.delay)) :
    await r p = .stopped { p with clock := p.before (p.clock + r.delay) } := by
  change andThen (passTo (p.clock + r.delay)) _ p = _
  rw [andThen, passTo_apply, if_neg h]

theorem await_done_ok {r : Reply α} {p q : Progress} {a : α} :
    await r p = .done (.ok a) q ↔
      r.outcome = .answered a ∧ p.Reaches (p.clock + r.delay) ∧
        q = { p with clock := p.clock + r.delay } := by
  by_cases h : p.Reaches (p.clock + r.delay)
  · rw [await_of_reaches h]
    cases hr : r.outcome with
    | answered b =>
      constructor
      · intro he
        cases he
        exact ⟨rfl, h, rfl⟩
      · rintro ⟨hb, -, rfl⟩
        cases hb
        rfl
    | failed e => exact ⟨fun he => (nomatch he), fun he => (nomatch he.1)⟩
    | silent => exact ⟨fun he => (nomatch he), fun he => (nomatch he.1)⟩
  · rw [await_of_not_reaches h]
    exact ⟨fun he => (nomatch he), fun he => absurd he.2.1 h⟩

theorem await_done_error {r : Reply α} {p q : Progress} {e : ClientError} :
    await r p = .done (.error e) q ↔
      r.outcome = .failed e ∧ p.Reaches (p.clock + r.delay) ∧
        q = { p with clock := p.clock + r.delay } := by
  by_cases h : p.Reaches (p.clock + r.delay)
  · rw [await_of_reaches h]
    cases hr : r.outcome with
    | answered b => exact ⟨fun he => (nomatch he), fun he => (nomatch he.1)⟩
    | failed e' =>
      constructor
      · intro he
        cases he
        exact ⟨rfl, h, rfl⟩
      · rintro ⟨hb, -, rfl⟩
        cases hb
        rfl
    | silent => exact ⟨fun he => (nomatch he), fun he => (nomatch he.1)⟩
  · rw [await_of_not_reaches h]
    exact ⟨fun he => (nomatch he), fun he => absurd he.2.1 h⟩

/-- Waiting for a reply passes the time, and nothing else. -/
theorem await_progress (r : Reply α) (p : Progress) :
    ∃ clock, (await r p).progress = { p with clock := clock } := by
  by_cases h : p.Reaches (p.clock + r.delay)
  · rw [await_of_reaches h]
    cases r.outcome with
    | answered a => exact ⟨_, rfl⟩
    | failed e => exact ⟨_, rfl⟩
    | silent => exact ⟨_, rfl⟩
  · rw [await_of_not_reaches h]
    exact ⟨_, rfl⟩

theorem await_asked (r : Reply α) (p : Progress) : (await r p).progress.asked = p.asked := by
  obtain ⟨clock, h⟩ := await_progress r p
  rw [h]

/-! ## Opening a stream -/

section Opening

variable {node : NodeId} {service : Service} {call : Call} {session : Nat → Session α}
  {p q : Progress}

theorem openSession_apply (node : NodeId) (service : Service) (call : Call)
    (session : Nat → Session α) (p : Progress) :
    openSession node service call session p =
      (await (session (p.calls node service)).opening >>= fun _ =>
        return .ofSession node (session (p.calls node service)))
      { p with
        calls := countCall p.calls node service
        asked := p.asked ++ [⟨p.clock, node, call⟩] } := rfl

theorem openSession_done_ok {s : Stream α} :
    openSession node service call session p = .done (.ok s) q ↔
      (session (p.calls node service)).opening.outcome = .answered () ∧
        p.Reaches (p.clock + (session (p.calls node service)).opening.delay) ∧
        s = .ofSession node (session (p.calls node service)) ∧
        q = { p with
          calls := countCall p.calls node service
          asked := p.asked ++ [⟨p.clock, node, call⟩]
          clock := p.clock + (session (p.calls node service)).opening.delay } := by
  rw [openSession_apply, bind_done_ok]
  constructor
  · rintro ⟨_, r, hopen, hreturn⟩
    obtain ⟨hanswered, hreach, rfl⟩ := await_done_ok.1 hopen
    cases hreturn
    exact ⟨hanswered, hreach, rfl, rfl⟩
  · rintro ⟨hanswered, hreach, rfl, rfl⟩
    exact ⟨(), _, await_done_ok.2 ⟨hanswered, hreach, rfl⟩, rfl⟩

end Opening

/-! ## Deadlines -/

theorem within_apply (milliseconds : Nat) (expired : ClientError) (x : Client α)
    (p : Progress) :
    within milliseconds expired x p =
      match x { p with limit := some (p.before (p.clock + milliseconds)) } with
      | .done r q => .done r { q with limit := p.limit }
      | .stopped q =>
        if p.Reaches (p.clock + milliseconds) then
          .done (.error expired) { q with clock := p.clock + milliseconds, limit := p.limit }
        else .stopped { q with limit := p.limit } := rfl

theorem within_done_ok {milliseconds : Nat} {expired : ClientError} {x : Client α}
    {p q : Progress} {a : α} :
    within milliseconds expired x p = .done (.ok a) q ↔
      ∃ r, x { p with limit := some (p.before (p.clock + milliseconds)) } = .done (.ok a) r ∧
        q = { r with limit := p.limit } := by
  rw [within_apply]
  cases h : x { p with limit := some (p.before (p.clock + milliseconds)) } with
  | done result r =>
    constructor
    · intro he
      cases he
      exact ⟨r, rfl, rfl⟩
    · rintro ⟨r', he, rfl⟩
      cases he
      rfl
  | stopped r =>
    constructor
    · intro he
      dsimp only at he
      split at he
      · cases he
      · cases he
    · rintro ⟨r', he, -⟩
      cases he

theorem within_done_error {milliseconds : Nat} {expired e : ClientError} {x : Client α}
    {p q : Progress} :
    within milliseconds expired x p = .done (.error e) q ↔
      (∃ r, x { p with limit := some (p.before (p.clock + milliseconds)) } = .done (.error e) r ∧
        q = { r with limit := p.limit }) ∨
      ∃ r, x { p with limit := some (p.before (p.clock + milliseconds)) } = .stopped r ∧
        p.Reaches (p.clock + milliseconds) ∧ e = expired ∧
        q = { r with clock := p.clock + milliseconds, limit := p.limit } := by
  rw [within_apply]
  cases h : x { p with limit := some (p.before (p.clock + milliseconds)) } with
  | done result r =>
    simp only [reduceCtorEq, false_and, exists_false, or_false]
    constructor
    · intro he
      cases he
      exact ⟨r, rfl, rfl⟩
    · rintro ⟨r', he, rfl⟩
      cases he
      rfl
  | stopped r =>
    simp only [reduceCtorEq, false_and, exists_false, false_or]
    constructor
    · intro he
      split at he
      · rename_i hr
        cases he
        exact ⟨r, rfl, hr, rfl, rfl⟩
      · cases he
    · rintro ⟨r', he, hr, rfl, rfl⟩
      cases he
      rw [if_pos hr]

/-- A deadline changes the instant at which a run ends, and nothing else. -/
theorem within_progress (milliseconds : Nat) (expired : ClientError) (x : Client α)
    (p : Progress) :
    ∃ clock, (within milliseconds expired x p).progress =
      { (x { p with limit := some (p.before (p.clock + milliseconds)) }).progress with
        clock := clock, limit := p.limit } := by
  rw [within_apply]
  cases x { p with limit := some (p.before (p.clock + milliseconds)) } with
  | done result q => exact ⟨q.clock, rfl⟩
  | stopped q =>
    dsimp only
    split
    · exact ⟨_, rfl⟩
    · exact ⟨q.clock, rfl⟩

/-- A deadline ends every computation that nothing outside stops. -/
theorem within_of_limit_none {p : Progress} (h : p.limit = none) (milliseconds : Nat)
    (expired : ClientError) (x : Client α) :
    ∃ r q, within milliseconds expired x p = .done r q := by
  rw [within_apply]
  cases x { p with limit := some (p.before (p.clock + milliseconds)) } with
  | done r q => exact ⟨r, _, rfl⟩
  | stopped q =>
    dsimp only
    rw [if_pos (Progress.reaches_of_limit_none h _)]
    exact ⟨_, _, rfl⟩

/-! ## Fans -/

/-- The progress when a fan of tasks ends at an instant. -/
def fanned (fan : Fan α) (p : Progress) (instant : Nat) : Progress :=
  { (if p.clock < fan.group.horizon then fan.begun p else p) with
    asked := p.asked ++ Task.askedBefore fan.group.horizon fan.tasks
    clock := instant }

theorem awaitFan_apply (fan : Fan α) (p : Progress) :
    awaitFan fan p = match fan.group.ending with
      | some (instant, none) => .done (.ok fan.group.results) (fanned fan p instant)
      | some (instant, some e) => .done (.error e) (fanned fan p instant)
      | none =>
        if p.Reaches fan.deadline then
          .done (.error fan.expired) (fanned fan p fan.deadline)
        else .stopped (fanned fan p (p.before fan.deadline)) := rfl

theorem awaitFan_done_ok {fan : Fan α} {p q : Progress} {as : List α} :
    awaitFan fan p = .done (.ok as) q ↔
      ∃ instant, fan.group.ending = some (instant, none) ∧ as = fan.group.results ∧
        q = fanned fan p instant := by
  rw [awaitFan_apply]
  constructor
  · intro h
    split at h
    · rename_i instant he
      cases h
      exact ⟨instant, he, rfl, rfl⟩
    · cases h
    · split at h
      · cases h
      · cases h
  · rintro ⟨instant, he, rfl, rfl⟩
    rw [he]

theorem awaitFan_done_error {fan : Fan α} {p q : Progress} {e : ClientError} :
    awaitFan fan p = .done (.error e) q ↔
      (∃ instant, fan.group.ending = some (instant, some e) ∧ q = fanned fan p instant) ∨
        (fan.group.ending = none ∧ p.Reaches fan.deadline ∧ e = fan.expired ∧
          q = fanned fan p fan.deadline) := by
  rw [awaitFan_apply]
  constructor
  · intro h
    split at h
    · cases h
    · rename_i instant e' he
      cases h
      exact .inl ⟨instant, he, rfl⟩
    · rename_i he
      split at h
      · rename_i hr
        cases h
        exact .inr ⟨he, hr, rfl, rfl⟩
      · cases h
  · rintro (⟨instant, he, rfl⟩ | ⟨he, hr, rfl, rfl⟩)
    · rw [he]
    · simp only [he, if_pos hr]

theorem awaitFan_progress (fan : Fan α) (p : Progress) :
    ∃ instant, (awaitFan fan p).progress = fanned fan p instant := by
  rw [awaitFan_apply]
  split
  · exact ⟨_, rfl⟩
  · exact ⟨_, rfl⟩
  · split
    · exact ⟨_, rfl⟩
    · exact ⟨_, rfl⟩

/-! ## What is asked -/

/-- A computation that keeps what has been asked and adds calls of one kind only. -/
def AsksOnly (allowed : NodeId → Call → Prop) (x : Client α) : Prop :=
  ∀ p, ∃ more, (x p).progress.asked = p.asked ++ more ∧ ∀ a ∈ more, allowed a.node a.call

/-- What follows a computation adds to what that has asked. -/
theorem bind_asked {allowed : NodeId → Call → Prop} (x : Client α) {f : α → Client β}
    (hf : ∀ a, AsksOnly allowed (f a)) (p : Progress) :
    ∃ more, ((x >>= f) p).progress.asked = (x p).progress.asked ++ more ∧
      ∀ a ∈ more, allowed a.node a.call := by
  cases h : x p with
  | done result q =>
    cases result with
    | ok a =>
      rw [bind_of_ok h]
      exact hf a q
    | error e =>
      rw [bind_of_error h]
      exact ⟨[], (List.append_nil _).symm, fun _ ha => nomatch ha⟩
  | stopped q =>
    rw [bind_of_stopped h]
    exact ⟨[], (List.append_nil _).symm, fun _ ha => nomatch ha⟩

theorem bind_asked_cons {allowed : NodeId → Call → Prop} {x : Client α} {f : α → Client β}
    {p : Progress} {a : Asked} (hx : (x p).progress.asked = p.asked ++ [a])
    (hf : ∀ b, AsksOnly allowed (f b)) :
    ∃ more, ((x >>= f) p).progress.asked = p.asked ++ a :: more ∧
      ∀ a ∈ more, allowed a.node a.call := by
  obtain ⟨more, hasked, hmore⟩ := bind_asked x hf p
  rw [hx, List.append_assoc, List.singleton_append] at hasked
  exact ⟨more, hasked, hmore⟩

/-- What asks nothing leaves what has been asked before it. -/
theorem bind_asked_eq (x : Client α) {f : α → Client β}
    (hf : ∀ a q, (f a q).progress.asked = q.asked) (p : Progress) :
    ((x >>= f) p).progress.asked = (x p).progress.asked := by
  cases h : x p with
  | done result q =>
    cases result with
    | ok a =>
      rw [bind_of_ok h]
      exact hf a q
    | error e =>
      rw [bind_of_error h]
      rfl
  | stopped q =>
    rw [bind_of_stopped h]
    rfl

theorem openSession_asked (node : NodeId) (service : Service) (call : Call)
    (session : Nat → Session α) (p : Progress) :
    (openSession node service call session p).progress.asked =
      p.asked ++ [⟨p.clock, node, call⟩] := by
  rw [openSession_apply, bind_asked_eq _ fun _ _ => rfl, await_asked]

theorem attempt_asked (x : Client α) (p : Progress) :
    (attempt x p).progress.asked = (x p).progress.asked := by
  rw [attempt_apply]
  cases x p <;> rfl

theorem within_asked (milliseconds : Nat) (expired : ClientError) (x : Client α) (p : Progress) :
    (within milliseconds expired x p).progress.asked =
      (x { p with limit := some (p.before (p.clock + milliseconds)) }).progress.asked := by
  obtain ⟨clock, h⟩ := within_progress milliseconds expired x p
  rw [h]

namespace AsksOnly

variable {allowed : NodeId → Call → Prop}

theorem of_keeps {x : Client α} (h : ∀ p, (x p).progress.asked = p.asked) :
    AsksOnly allowed x :=
  fun p => ⟨[], by rw [h p, List.append_nil], fun a ha => nomatch ha⟩

theorem pure (a : α) : AsksOnly allowed (Pure.pure a : Client α) := of_keeps fun _ => rfl

theorem throw (e : ClientError) : AsksOnly allowed (throw e : Client α) := of_keeps fun _ => rfl

theorem lift (r : Except ClientError α) : AsksOnly allowed (liftM r : Client α) :=
  of_keeps fun _ => rfl

theorem issue (x : Issuing α) : AsksOnly allowed (Client.issue x) := of_keeps fun p => by
  rw [Client.issue]
  split <;> rfl

theorem progress : AsksOnly allowed Client.progress := of_keeps fun _ => rfl

theorem never : AsksOnly allowed (Client.never : Client α) := of_keeps fun _ => rfl

theorem await (r : Reply α) : AsksOnly allowed (Client.await r) := of_keeps (await_asked r)

theorem note {node : NodeId} {call : Call} (h : allowed node call) :
    AsksOnly allowed (Client.note node call) :=
  fun p => ⟨[⟨p.clock, node, call⟩], rfl, fun a ha => by
    rw [List.mem_singleton.1 ha]
    exact h⟩

theorem number (node : NodeId) (service : Service) :
    AsksOnly allowed (Client.number node service) := of_keeps fun _ => rfl

theorem bind {x : Client α} {f : α → Client β} (hx : AsksOnly allowed x)
    (hf : ∀ a, AsksOnly allowed (f a)) : AsksOnly allowed (x >>= f) := by
  intro p
  obtain ⟨more, hmore, hall⟩ := hx p
  obtain ⟨rest, hrest, hall'⟩ := bind_asked x hf p
  refine ⟨more ++ rest, by rw [hrest, hmore, List.append_assoc], fun a ha => ?_⟩
  rcases List.mem_append.1 ha with ha | ha
  · exact hall a ha
  · exact hall' a ha

theorem attempt {x : Client α} (hx : AsksOnly allowed x) : AsksOnly allowed (attempt x) := by
  intro p
  rw [attempt_asked]
  exact hx p

theorem within {milliseconds : Nat} {expired : ClientError} {x : Client α}
    (hx : AsksOnly allowed x) : AsksOnly allowed (within milliseconds expired x) := by
  intro p
  rw [within_asked]
  exact hx { p with limit := some (p.before (p.clock + milliseconds)) }

theorem mono {allowed' : NodeId → Call → Prop} {x : Client α} (hx : AsksOnly allowed x)
    (h : ∀ n c, allowed n c → allowed' n c) : AsksOnly allowed' x := by
  intro p
  obtain ⟨more, hmore, hall⟩ := hx p
  exact ⟨more, hmore, fun a ha => h _ _ (hall a ha)⟩

end AsksOnly

/-- A computation that numbers calls of one service only. -/
def CallsOnly (service : Service) (x : Client α) : Prop :=
  ∀ p : Progress, p.Keeps service (x p).progress

namespace CallsOnly

variable {service : Service}

theorem of_keeps {x : Client α} (hlimit : ∀ p, (x p).progress.limit = p.limit)
    (hcalls : ∀ p, (x p).progress.calls = p.calls) : CallsOnly service x :=
  fun p => ⟨hlimit p, fun _ _ _ => by rw [hcalls]⟩

theorem pure (a : α) : CallsOnly service (Pure.pure a : Client α) :=
  of_keeps (fun _ => rfl) fun _ => rfl

theorem throw (e : ClientError) : CallsOnly service (throw e : Client α) :=
  of_keeps (fun _ => rfl) fun _ => rfl

theorem lift (r : Except ClientError α) : CallsOnly service (liftM r : Client α) :=
  of_keeps (fun _ => rfl) fun _ => rfl

theorem issue (x : Issuing α) : CallsOnly service (Client.issue x) := by
  refine of_keeps (fun p => ?_) fun p => ?_
  all_goals
    rw [Client.issue]
    split <;> rfl

theorem progress : CallsOnly service Client.progress := of_keeps (fun _ => rfl) fun _ => rfl

theorem never : CallsOnly service (Client.never : Client α) :=
  of_keeps (fun _ => rfl) fun _ => rfl

theorem await (r : Reply α) : CallsOnly service (Client.await r) := fun p => by
  obtain ⟨clock, h⟩ := await_progress r p
  rw [h]
  exact ⟨rfl, fun _ _ _ => rfl⟩

theorem note (node : NodeId) (call : Call) : CallsOnly service (Client.note node call) :=
  of_keeps (fun _ => rfl) fun _ => rfl

theorem number (node : NodeId) : CallsOnly service (Client.number node service) :=
  fun _ => ⟨rfl, fun _ _ ho => countCall_other ho _ _ _⟩

theorem bind {x : Client α} {f : α → Client β} (hx : CallsOnly service x)
    (hf : ∀ a, CallsOnly service (f a)) : CallsOnly service (x >>= f) := by
  intro p
  have hkeeps := hx p
  cases h : x p with
  | done result q =>
    rw [h] at hkeeps
    cases result with
    | ok a =>
      rw [bind_of_ok h]
      exact ⟨(hf a q).limit.trans hkeeps.limit,
        fun node other ho => ((hf a q).calls node other ho).trans (hkeeps.calls node other ho)⟩
    | error e =>
      rw [bind_of_error h]
      exact hkeeps
  | stopped q =>
    rw [h] at hkeeps
    rw [bind_of_stopped h]
    exact hkeeps

theorem attempt {x : Client α} (hx : CallsOnly service x) : CallsOnly service (attempt x) := by
  intro p
  have hkeeps := hx p
  rw [attempt_apply]
  cases h : x p with
  | done result q =>
    rw [h] at hkeeps
    exact hkeeps
  | stopped q =>
    rw [h] at hkeeps
    exact hkeeps

theorem within {milliseconds : Nat} {expired : ClientError} {x : Client α}
    (hx : CallsOnly service x) : CallsOnly service (within milliseconds expired x) := by
  intro p
  obtain ⟨clock, h⟩ := within_progress milliseconds expired x p
  rw [h]
  exact ⟨rfl, (hx { p with limit := some (p.before (p.clock + milliseconds)) }).calls⟩

end CallsOnly

/-- A computation that waits for a fan asks what the tasks of the fan ask. -/
theorem asksOnly_of_awaitFan {allowed : NodeId → Call → Prop} {x : Client α}
    (fan : Progress → Fan β) (hx : ∀ p, (x p).progress = (awaitFan (fan p) p).progress)
    (h : ∀ p, ∀ task ∈ (fan p).tasks, ∀ a ∈ task.asked, allowed a.node a.call) :
    AsksOnly allowed x := by
  intro p
  obtain ⟨instant, hp⟩ := awaitFan_progress (fan p) p
  refine ⟨Task.askedBefore (fan p).group.horizon (fan p).tasks, by rw [hx, hp, fanned],
    fun a ha => ?_⟩
  obtain ⟨⟨task, hm, ha⟩, -⟩ := Task.mem_askedBefore.1 ha
  exact h p task hm a ha

end Client

end LedgerClient
