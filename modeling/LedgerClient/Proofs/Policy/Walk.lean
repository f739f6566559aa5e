import LedgerClient.Policy.Walk
import LedgerClient.Proofs.Policy.Grammar
import LedgerClient.Proofs.Wire.Boundaries
/-!
# Walks and cursors

* `Track.Sound`: no position lies inside a character, and none is less than one before.
* `Does`: what a walk does on a position is what is done on a cursor, without a broken cut.  Walks
  that do so can be put together: `Does.bind_ok`, `Does.bind_error`.
* `does_parts`: expressions and operands do so, by induction on the fuel, of which there is enough.
* `does_check`: so does the whole parser.
-/

namespace LedgerClient.Policy

/-! ## Sound tracks -/

namespace Track

variable {text : List Char} {t t' t'' : Track} {s s' : Cursor}

/-- No position lies inside a character or beyond the text, and none is less than one before. -/
structure Sound (t : Track) (text : List Char) : Prop where
  boundary : ∀ p ∈ t.pos :: t.past, Utf8.IsBoundary (Utf8.encodeChars text) p
  ordered : (t.pos :: t.past).Pairwise (· ≥ ·)

/-- The positions of the first track come before those that the second one has in addition. -/
def Extends (t t' : Track) : Prop := t.pos :: t.past <:+ t'.pos :: t'.past

theorem Extends.refl (t : Track) : t.Extends t := List.suffix_rfl

theorem Extends.trans (h : t.Extends t') (h' : t'.Extends t'') : t.Extends t'' :=
  List.IsSuffix.trans h h'

/-- The track is where a cursor of the text is. -/
structure At (t : Track) (text : List Char) (s : Cursor) : Prop where
  sound : t.Sound text
  pos : t.pos = s.pos
  inside : ∃ front, Cursor.Reads ⟨0, text⟩ front s

theorem start_at (text : List Char) : start.At text ⟨0, text⟩ where
  sound := by
    refine ⟨fun p hp => ?_, List.pairwise_singleton _ _⟩
    obtain rfl := List.mem_singleton.1 hp
    exact Utf8.isBoundary_size [] text
  pos := rfl
  inside := ⟨[], .refl _⟩

/-- A boundary further on may be the next position. -/
theorem Sound.moved {p : Nat} {bodies : List (List Char)} (h : t.Sound text) (hle : t.pos ≤ p)
    (hp : Utf8.IsBoundary (Utf8.encodeChars text) p) :
    Sound ⟨p, t.pos :: t.past, bodies⟩ text := by
  refine ⟨fun q hq => ?_, List.pairwise_cons.2 ⟨fun q hq => ?_, h.ordered⟩⟩
  · rcases List.mem_cons.1 hq with rfl | hq
    · exact hp
    · exact h.boundary q hq
  · rcases List.mem_cons.1 hq with rfl | hq
    · exact hle
    · exact Nat.le_trans ((List.pairwise_cons.1 h.ordered).1 q hq) hle

/-- At a boundary stands a cursor. -/
theorem Sound.exists_at (h : t.Sound text) : ∃ s, t.At text s := by
  obtain ⟨⟨front, rest⟩, hcut⟩ :=
    Utf8.exists_splitBytes?_iff.2 (h.boundary t.pos List.mem_cons_self)
  obtain ⟨htext, hpos⟩ := Utf8.eq_append_of_splitBytes? hcut
  exact ⟨⟨t.pos, rest⟩, h, rfl, front, htext, by rw [Nat.zero_add, hpos]⟩

theorem At.splitBytes? (h : t.At text s) : ∃ front, Utf8.splitBytes? t.pos text =
    some (front, s.rest) := by
  obtain ⟨front, hfront⟩ := h.inside
  have hpos : t.pos = Utf8.size front := by rw [h.pos, hfront.pos, Nat.zero_add]
  refine ⟨front, ?_⟩
  rw [hpos]
  exact (congrArg (Utf8.splitBytes? _) hfront.rest).trans (Utf8.splitBytes?_append _ _)

theorem At.moved {u : List Char} {bodies : List (List Char)} (h : t.At text s)
    (hreads : s.Reads u s') : At ⟨s'.pos, t.pos :: t.past, bodies⟩ text s' := by
  obtain ⟨front, hfront⟩ := h.inside
  have hall := hfront.trans hreads
  refine ⟨h.sound.moved ?_ ?_, rfl, _, hall⟩
  · rw [h.pos, hreads.pos]
    exact Nat.le_add_right _ _
  · have htext : text = (front ++ u) ++ s'.rest := hall.rest
    have hpos : s'.pos = Utf8.size (front ++ u) := hall.pos.trans (Nat.zero_add _)
    rw [hpos, htext]
    exact Utf8.isBoundary_size _ _

end Track

/-! ## What is done on positions and on cursors -/

section Does

variable {α β : Type} {text : List Char} {s s' : Cursor} {w : Walk α} {k : α → Walk β} {a : α}
  {log log' : List (List Char)} {fault : Fault} {answer : Except Fault (β × Cursor)}

/-- Where a cursor stands, a walk gives the answer that is given on the cursor: it gets to the same
place with the same value and has read the principals `log`, or is refused with the same fault.
Neither is a cut broken nor the fuel used up, and the track stays sound. -/
def Does (text : List Char) (w : Walk α) (s : Cursor) (log : List (List Char)) :
    (answer : Except Fault (α × Cursor)) → Prop
  | .ok (a, s') => ∀ t : Track, t.At text s → ∃ t', w t = .ok a t' ∧ t'.At text s' ∧
      t.Extends t' ∧ t'.principals = t.principals ++ log
  | .error fault => ∀ t : Track, t.At text s → ∃ t', w t = .error (.refused fault) t' ∧
      t'.Sound text ∧ t.Extends t'

/-- The answer of a reader that only moves the cursor. -/
def moving (r : Except Fault Cursor) : Except Fault (Unit × Cursor) := r.map fun s => ((), s)

theorem Walk.bind_ok {t t' : Track} (h : w t = .ok a t') : (w >>= k) t = k a t' := by
  change EStateM.bind w k t = _
  rw [EStateM.bind, h]

theorem Walk.bind_error {t t' : Track} {e : Stop} (h : w t = .error e t') :
    (w >>= k) t = .error e t' := by
  change EStateM.bind w k t = _
  rw [EStateM.bind, h]

theorem Does.bind_ok (h : Does text w s log (.ok (a, s'))) (hk : Does text (k a) s' log' answer) :
    Does text (w >>= k) s (log ++ log') answer := by
  cases answer with
  | ok x =>
    intro t ht
    obtain ⟨t', hw, ht', hext, hlog⟩ := h t ht
    obtain ⟨t'', hk', ht'', hext', hlog'⟩ := hk t' ht'
    refine ⟨t'', (Walk.bind_ok hw).trans hk', ht'', hext.trans hext', ?_⟩
    rw [hlog', hlog, List.append_assoc]
  | error fault =>
    intro t ht
    obtain ⟨t', hw, ht', hext, -⟩ := h t ht
    obtain ⟨t'', hk', ht'', hext'⟩ := hk t' ht'
    exact ⟨t'', (Walk.bind_ok hw).trans hk', ht'', hext.trans hext'⟩

theorem Does.bind_error (h : Does text w s log (.error fault)) :
    Does text (w >>= k) s log' (.error fault) := by
  intro t ht
  obtain ⟨t', hw, ht', hext⟩ := h t ht
  exact ⟨t', Walk.bind_error hw, ht', hext⟩

/-- A first step that reads no principal. -/
theorem Does.then (h : Does text w s [] (.ok (a, s'))) (hk : Does text (k a) s' log answer) :
    Does text (w >>= k) s log answer :=
  h.bind_ok hk

/-- A last step that reads no principal. -/
theorem Does.before (h : Does text w s log (.ok (a, s'))) (hk : Does text (k a) s' [] answer) :
    Does text (w >>= k) s log answer := by
  have hall := h.bind_ok hk
  rwa [List.append_nil] at hall

section Answers

variable {r : Except Fault (α × Cursor)} {moved : Except Fault Cursor}

theorem moving_bind {γ : Type} (x : Except Fault γ) (f : γ → Except Fault Cursor) :
    moving (x >>= f) = x >>= fun a => moving (f a) := by
  cases x with
  | ok a => rfl
  | error fault => rfl

/-- A step that reads no principal, and what is done with its answer. -/
theorem Does.andThen {next : α × Cursor → Except Fault (β × Cursor)} (h : Does text w s [] r)
    (hk : ∀ a s', r = .ok (a, s') → Does text (k a) s' log (next (a, s'))) :
    Does text (w >>= k) s log (r >>= next) := by
  cases r with
  | ok x => exact h.then (hk x.1 x.2 rfl)
  | error fault => exact h.bind_error

theorem Does.andMove {k : Unit → Walk β} {w : Walk Unit} {next : Cursor → Except Fault (β × Cursor)}
    (h : Does text w s [] (moving moved))
    (hk : ∀ s', moved = .ok s' → Does text (k ()) s' log (next s')) :
    Does text (w >>= k) s log (moved >>= next) := by
  cases moved with
  | ok s' => exact h.then (hk s' rfl)
  | error fault => exact h.bind_error

/-- A step after which no principal is read. -/
theorem Does.andEnd {next : α × Cursor → Except Fault (β × Cursor)} (h : Does text w s log r)
    (hk : ∀ a s', r = .ok (a, s') → Does text (k a) s' [] (next (a, s'))) :
    Does text (w >>= k) s log (r >>= next) := by
  cases r with
  | ok x => exact h.before (hk x.1 x.2 rfl)
  | error fault => exact h.bind_error

end Answers

theorem does_pure (a : α) (s : Cursor) : Does text (pure a) s [] (.ok (a, s)) := by
  intro t ht
  exact ⟨t, rfl, ht, .refl t, (List.append_nil _).symm⟩

theorem does_refuse (fault : Fault) (s : Cursor) :
    Does (α := α) text (Walk.refuse fault) s log (.error fault) := by
  intro t ht
  exact ⟨t, rfl, ht.sound, .refl t⟩

theorem does_position (s : Cursor) : Does text Walk.position s [] (.ok (s.pos, s)) := by
  intro t ht
  exact ⟨t, by rw [← ht.pos]; rfl, ht, .refl t, (List.append_nil _).symm⟩

theorem does_note (body : List Char) (s : Cursor) :
    Does text (Walk.note body) s [body] (.ok ((), s)) := by
  intro t ht
  exact ⟨_, rfl, ⟨⟨ht.sound.boundary, ht.sound.ordered⟩, ht.pos, ht.inside⟩, .refl t, rfl⟩

theorem does_moveTo {u : List Char} {p : Nat} (h : s.Reads u s') (hp : p = s'.pos) :
    Does text (Walk.moveTo p) s [] (.ok ((), s')) := by
  intro t ht
  subst hp
  exact ⟨_, rfl, ht.moved h, List.suffix_cons _ _, (List.append_nil _).symm⟩

theorem does_advance {u : List Char} {n : Nat} (h : s.Reads u s') (hn : n = Utf8.size u) :
    Does text (Walk.advance n) s [] (.ok ((), s')) :=
  (does_position s).then (does_moveTo h (by rw [h.pos, hn]))

theorem does_cut {u v : List Char} {n : Nat} (h : Utf8.splitBytes? n (u ++ v) = some (u, v))
    (s : Cursor) : Does text (Walk.cut n (u ++ v)) s [] (.ok ((u, v), s)) := by
  intro t ht
  exact ⟨t, by rw [Walk.cut, h]; rfl, ht, .refl t, (List.append_nil _).symm⟩

/-- A walk may rely on its cursor being one of the text. -/
theorem Does.of_inside {r : Except Fault (α × Cursor)}
    (h : (∃ front, Cursor.Reads ⟨0, text⟩ front s) → Does text w s log r) :
    Does text w s log r := by
  cases r with
  | ok x => exact fun t ht => h ht.inside t ht
  | error fault => exact fun t ht => h ht.inside t ht

/-! ### Looking at the text -/

theorem does_rest (s : Cursor) : Does text (Walk.rest text) s [] (.ok (s.rest, s)) := by
  intro t ht
  obtain ⟨u, hcut⟩ := ht.splitBytes?
  refine ⟨t, ?_, ht, .refl t, (List.append_nil _).symm⟩
  have hpart : Walk.cut t.pos text t = .ok (u, s.rest) t := by
    rw [Walk.cut, hcut]
    rfl
  change ((Walk.cut t.pos text >>= fun parts => pure parts.2) : Walk _) t = _
  exact Walk.bind_ok hpart

theorem does_front {u : List Char} {n : Nat} (h : s.Reads u s') (hn : n = Utf8.size u) :
    Does text (Walk.front text n) s [] (.ok (u, s)) := by
  refine (does_rest s).then ?_
  rw [h.rest, hn]
  exact (does_cut (Utf8.splitBytes?_append _ _) s).then (does_pure u s)

theorem does_skipBlank (s : Cursor) :
    Does text (Walk.skipBlank text) s [] (.ok ((), s.skipBlank)) := by
  obtain ⟨w, -, hreads⟩ := Cursor.reads_skipBlank s
  intro t ht
  refine ((does_rest s).then (does_moveTo hreads ?_) : Does text _ s [] (.ok ((), s.skipBlank)))
    t ht
  obtain ⟨u, hu⟩ := ht.inside
  have hall := hu.trans hreads
  have hpos : s.skipBlank.pos = Utf8.size (u ++ w) := hall.pos.trans (Nat.zero_add _)
  have htext : text = (u ++ w) ++ s.skipBlank.rest := hall.rest
  change Utf8.size text - Utf8.size s.skipBlank.rest = _
  rw [hpos, htext, Cursor.Reads.size_append, Nat.add_sub_cancel]

theorem does_expect (c : Char) (s : Cursor) :
    Does text (Walk.expect text c) s [] (moving (s.expect c)) := by
  rw [Walk.expect]
  refine (does_skipBlank s).then ((does_rest _).then ?_)
  rw [Cursor.expect]
  cases hrest : s.skipBlank.rest with
  | nil => exact (does_position _).then (does_refuse _ _)
  | cons a rest =>
    dsimp only
    rw [List.head?_cons]
    by_cases ha : a = c
    · subst ha
      rw [if_pos rfl, if_pos rfl]
      exact does_advance (Cursor.reads_single hrest) rfl
    · rw [if_neg (fun h => ha (Option.some.inj h)), if_neg ha]
      exact (does_position _).then (does_refuse _ _)

/-! ### Tokens -/

theorem offset?_eq (p : Char → Bool) (cs : List Char) :
    Walk.offset? p cs = if (cs.dropWhile fun c => !p c).isEmpty then none
      else some (Utf8.size (cs.takeWhile fun c => !p c)) := by
  induction cs with
  | nil => rfl
  | cons c cs ih =>
    rw [Walk.offset?, List.dropWhile_cons, List.takeWhile_cons]
    cases hc : p c with
    | true => rfl
    | false =>
      rw [ih, if_neg Bool.false_ne_true, Bool.not_false, if_pos rfl, if_pos rfl]
      split
      · rfl
      · rfl

theorem span_eq (p : Char → Bool) (cs : List Char) :
    Walk.span p cs = Utf8.size (cs.takeWhile p) := by
  rw [Walk.span, offset?_eq]
  simp only [Bool.not_not]
  have hsplit : cs.takeWhile p ++ cs.dropWhile p = cs := List.takeWhile_append_dropWhile
  split
  · rename_i hempty
    rw [List.isEmpty_iff.1 hempty, List.append_nil] at hsplit
    rw [Option.getD_none, hsplit]
  · rfl

theorem span_of_takeWhile {p : Char → Bool} {t : List Char} (h : s.takeWhile p = (t, s')) :
    Walk.span p s.rest = Utf8.size t := by
  rw [span_eq, ← show (s.takeWhile p).1 = t by rw [h]]
  rfl

theorem does_checkPrincipal (body : List Char) (s : Cursor) :
    Does text (match checkPrincipal body with
      | .ok () => (return () : Walk Unit)
      | .error fault => Walk.refuse fault) s [] (moving (checkPrincipal body >>= fun _ => .ok s)) := by
  cases checkPrincipal body with
  | ok _ => exact does_pure () s
  | error fault => exact does_refuse fault s

theorem offset?_quote (c : Char) (cs : List Char) :
    Walk.offset? (· == c) cs = if (cs.dropWhile (· != c)).isEmpty then none
      else some (Utf8.size (cs.takeWhile (· != c))) :=
  offset?_eq _ _

theorem does_principal {c : Char} {rest : List Char} (hs : s.rest = c :: rest)
    (hc : c = '\'' ∨ c = '"') :
    Does text (Walk.principal text) s [rest.takeWhile (· != c)]
      (moving (Policy.principal c ⟨s.pos + 1, rest⟩)) := by
  have hwidth := width_of_quote hc
  have hopen : s.Reads [c] ⟨s.pos + 1, rest⟩ := by
    rw [← hwidth]
    exact Cursor.reads_single hs
  have htake : (Cursor.mk (s.pos + 1) rest).takeWhile (· != c) = (rest.takeWhile (· != c),
    ⟨s.pos + 1 + Utf8.size (rest.takeWhile (· != c)), rest.dropWhile (· != c)⟩) := rfl
  obtain ⟨-, hbody, hstops⟩ := Cursor.takeWhile_eq_iff.1 htake
  rw [Walk.principal]
  refine (does_rest s).then ?_
  rw [hs]
  refine (does_advance hopen ?_).then ((does_rest _).then ?_)
  · change 1 = Utf8.width c + 0
    rw [hwidth]
  dsimp only [List.head?_cons, Option.getD_some]
  rw [offset?_quote, Policy.principal, htake]
  dsimp only at hbody hstops ⊢
  cases hafter : rest.dropWhile (· != c) with
  | nil => exact (does_position _).then (does_refuse _ _)
  | cons a tail =>
    rw [hafter] at hbody hstops
    obtain rfl : a = c := by
      have hstop := hstops a rfl
      simpa using hstop
    have hclose (n : Nat) : Cursor.Reads ⟨n, a :: tail⟩ [a] ⟨n + 1, tail⟩ := by
      rw [← hwidth]
      exact Cursor.reads_single rfl
    refine (does_front hbody rfl).then ((does_advance (hbody.trans (hclose _)) ?_).then ?_)
    · rw [Cursor.Reads.size_append]
      change _ = _ + (Utf8.width a + 0)
      rw [hwidth]
    · exact (does_note _ _).before (does_checkPrincipal _ _)

theorem does_count (s : Cursor) : Does text (Walk.count text) s [] (Policy.count s) := by
  rw [Walk.count, Policy.count]
  refine (does_skipBlank s).then ((does_rest _).then ?_)
  generalize s.skipBlank = m
  generalize htake : m.takeWhile isDigit = taken
  obtain ⟨digits, after⟩ := taken
  obtain ⟨-, hdigits, -⟩ := Cursor.takeWhile_eq_iff.1 htake
  have hspan := span_of_takeWhile htake
  refine (does_front hdigits hspan).then ?_
  dsimp only
  by_cases hbad : (digits.isEmpty || Nat.pow 2 64 ≤ countOf digits) = true
  · rw [if_pos hbad, if_pos hbad]
    exact (does_position m).then (does_refuse _ _)
  · rw [if_neg hbad, if_neg hbad]
    refine (does_advance hdigits hspan).then ?_
    exact (does_expect ',' after).andMove fun s' _ => does_pure _ s'

theorem does_opening (name : String) (s : Cursor) :
    Does text (Walk.opening text name) s [] (Policy.opening name s) := by
  rw [Walk.opening, Policy.opening]
  split
  · exact does_pure none s
  split
  · exact (does_count s).andThen fun n s' _ => does_pure (some n) s'
  · exact does_refuse _ _

/-! ### Gates and expressions -/

/-- Reads a gate up to its operands. -/
def gateOpening (s : Cursor) : Except Fault (Option Nat × Cursor) := do
  opening (lowerCase (s.takeWhile isLetter).1) (← (s.takeWhile isLetter).2.expect '(')

theorem does_gate {ops : Walk Nat} {read : Cursor → Except Fault (Nat × Cursor)}
    (h : ∀ k? s₁, gateOpening s = .ok (k?, s₁) → Does text ops s₁ log (read s₁)) :
    Does text (Walk.gate text ops) s log (moving (Policy.gate read s)) := by
  rw [Walk.gate, Policy.gate]
  rw [gateOpening] at h
  refine (does_rest s).then ?_
  generalize htake : s.takeWhile isLetter = taken at h ⊢
  obtain ⟨letters, m⟩ := taken
  obtain ⟨-, hletters, -⟩ := Cursor.takeWhile_eq_iff.1 htake
  have hspan := span_of_takeWhile htake
  refine (does_front hletters hspan).then ((does_advance hletters hspan).then ?_)
  dsimp only at h ⊢
  rw [moving_bind]
  refine (does_expect '(' m).andMove fun m₁ hm₁ => ?_
  rw [moving_bind]
  refine (does_opening _ m₁).andThen fun k? s₁ hs₁ => ?_
  rw [moving_bind]
  refine (h k? s₁ (except_bind_ok.2 ⟨m₁, hm₁, hs₁⟩)).andEnd fun n s₂ _ => ?_
  rw [moving_bind]
  refine (does_expect ')' s₂).andMove fun s₃ _ => ?_
  cases k? with
  | none => exact does_pure () s₃
  | some k =>
    dsimp only
    split
    · exact does_refuse _ _
    · exact does_pure () s₃

theorem does_expression_end (fuel : Nat) (h : s.skipBlank.rest = []) :
    Does text (Walk.expression text (fuel + 1)) s log (moving (Policy.expression (fuel + 1) s)) := by
  rw [Walk.expression, Policy.expression]
  refine (does_skipBlank s).then ((does_rest _).then ?_)
  simp only [h]
  exact does_refuse _ _

theorem does_expression_principal (fuel : Nat) {c : Char} {rest : List Char}
    (h : s.skipBlank.rest = c :: rest) (hc : c = '\'' ∨ c = '"') :
    Does text (Walk.expression text (fuel + 1)) s [rest.takeWhile (· != c)]
      (moving (Policy.expression (fuel + 1) s)) := by
  have hquote : (c = '\'' || c = '"') = true := by simpa using hc
  rw [Walk.expression, Policy.expression]
  refine (does_skipBlank s).then ((does_rest _).then ?_)
  have hprincipal : Does text (Walk.principal text) s.skipBlank _ _ := does_principal h hc
  simp only [h]
  dsimp only [List.head?_cons]
  rw [if_pos hquote, if_pos hquote]
  exact hprincipal

theorem does_expression_gate {fuel : Nat} {c : Char} {rest : List Char}
    (h : s.skipBlank.rest = c :: rest) (hc : ¬(c = '\'' ∨ c = '"'))
    (hgate : Does text (Walk.gate text (Walk.operands text fuel)) s.skipBlank log
      (moving (Policy.gate (Policy.operands fuel) s.skipBlank))) :
    Does text (Walk.expression text (fuel + 1)) s log (moving (Policy.expression (fuel + 1) s)) := by
  have hquote : ¬(c = '\'' || c = '"') = true := by simpa using hc
  rw [Walk.expression, Policy.expression]
  refine (does_skipBlank s).then ((does_rest _).then ?_)
  simp only [h]
  dsimp only [List.head?_cons]
  rw [if_neg hquote, if_neg hquote]
  exact hgate

theorem operands_comma {fuel : Nat} {m : Cursor} {rest : List Char}
    (hm : Policy.expression fuel s = .ok m) (hcomma : m.skipBlank.rest = ',' :: rest) :
    Policy.operands (fuel + 1) s =
      Policy.operands fuel ⟨m.skipBlank.pos + 1, rest⟩ >>= fun x => .ok (x.1 + 1, x.2) := by
  rw [Policy.operands, hm]
  simp only [bind, Except.bind, hcomma]
  rfl

theorem operands_last {fuel : Nat} {m : Cursor} (hm : Policy.expression fuel s = .ok m)
    (hlast : m.skipBlank.rest.head? ≠ some ',') :
    Policy.operands (fuel + 1) s = .ok (1, m.skipBlank) := by
  rw [Policy.operands, hm]
  simp only [bind, Except.bind]
  split
  · rename_i rest hrest
    exact absurd (congrArg List.head? hrest) hlast
  · rfl

/-- Operands after a comma are read after the operand before it. -/
theorem does_operands_comma {fuel : Nat} {m : Cursor} {rest : List Char}
    (h : Does text (Walk.expression text fuel) s log (.ok ((), m)))
    (hm : Policy.expression fuel s = .ok m) (hcomma : m.skipBlank.rest = ',' :: rest)
    (hops : Does text (Walk.operands text fuel) ⟨m.skipBlank.pos + 1, rest⟩ log'
      (Policy.operands fuel ⟨m.skipBlank.pos + 1, rest⟩)) :
    Does text (Walk.operands text (fuel + 1)) s (log ++ log') (Policy.operands (fuel + 1) s) := by
  rw [operands_comma hm hcomma, Walk.operands]
  refine h.bind_ok ((does_skipBlank m).then ((does_rest _).then ?_))
  rw [hcomma, List.head?_cons, if_pos rfl]
  refine (does_advance (Cursor.reads_single hcomma) rfl).then ?_
  exact hops.andEnd fun n s' _ => does_pure (n + 1) s'

theorem does_operands_last {fuel : Nat} {m : Cursor}
    (h : Does text (Walk.expression text fuel) s log (.ok ((), m)))
    (hm : Policy.expression fuel s = .ok m) (hlast : m.skipBlank.rest.head? ≠ some ',') :
    Does text (Walk.operands text (fuel + 1)) s log (Policy.operands (fuel + 1) s) := by
  rw [operands_last hm hlast, Walk.operands]
  refine h.before ((does_skipBlank m).then ((does_rest _).then ?_))
  rw [if_neg hlast]
  exact does_pure 1 m.skipBlank

/-! ### The whole parser -/

/-- What is read takes characters away. -/
theorem length_lt_of_reads {u : List Char} (h : s.Reads u s') (hu : u ≠ []) :
    s'.rest.length < s.rest.length := by
  have hpos := List.length_pos_iff.2 hu
  rw [h.rest, List.length_append]
  omega

theorem length_skipBlank_le (s : Cursor) : s.skipBlank.rest.length ≤ s.rest.length := by
  obtain ⟨w, -, hreads⟩ := Cursor.reads_skipBlank s
  rw [hreads.rest, List.length_append]
  omega

theorem expression_reads {fuel : Nat} (h : Policy.expression fuel s = .ok s') :
    ∃ u, u ≠ [] ∧ s.Reads u s' := by
  obtain ⟨u, hu, hreads⟩ := (reads_derived fuel).1 h
  exact ⟨u, List.ne_nil_of_length_pos hu.length_le, hreads⟩

theorem gateOpening_reads {k? : Option Nat} (h : gateOpening s = .ok (k?, s')) :
    ∃ u, u ≠ [] ∧ s.Reads u s' := by
  obtain ⟨m, hparen, hopening⟩ := except_bind_ok.1 h
  obtain ⟨-, hletters, -⟩ := Cursor.takeWhile_eq_iff.1
    (rfl : s.takeWhile isLetter = ((s.takeWhile isLetter).1, (s.takeWhile isLetter).2))
  obtain ⟨w, -, hw⟩ := (Cursor.expect_ok_iff (by decide)).1 hparen
  rcases opening_ok_iff.1 hopening with ⟨-, -, rfl⟩ | ⟨-, t, k, -, -, -, hcount⟩
  · exact ⟨_, by simp, hletters.trans hw⟩
  · exact ⟨_, by simp, (hletters.trans hw).trans hcount⟩

/-- A gate does on positions what it does on cursors if its operands do. -/
theorem exists_does_gate {ops : Walk Nat} {read : Cursor → Except Fault (Nat × Cursor)}
    (h : ∀ s₁, s₁.rest.length < s.rest.length → ∃ log, Does text ops s₁ log (read s₁)) :
    ∃ log, Does text (Walk.gate text ops) s log (moving (Policy.gate read s)) := by
  cases hopening : gateOpening s with
  | error fault =>
    refine ⟨[], does_gate fun k? s₁ hs₁ => ?_⟩
    rw [hopening] at hs₁
    cases hs₁
  | ok x =>
    obtain ⟨u, hu, hreads⟩ := gateOpening_reads hopening
    obtain ⟨log, hops⟩ := h x.2 (length_lt_of_reads hreads hu)
    refine ⟨log, does_gate fun k? s₁ hs₁ => ?_⟩
    rw [hopening] at hs₁
    cases hs₁
    exact hops

/-- Expressions and operands do on positions what they do on cursors.  The fuel goes down by one
from a gate to its operands and by one from operand to operand, and each takes a character. -/
theorem does_parts (text : List Char) (fuel : Nat) :
    (∀ s : Cursor, 2 * s.rest.length + 1 ≤ fuel → ∃ log,
      Does text (Walk.expression text fuel) s log (moving (Policy.expression fuel s))) ∧
    ∀ s : Cursor, 2 * s.rest.length + 2 ≤ fuel → ∃ log,
      Does text (Walk.operands text fuel) s log (Policy.operands fuel s) := by
  induction fuel with
  | zero => exact ⟨fun s h => by omega, fun s h => by omega⟩
  | succ fuel ih =>
    constructor
    · intro s hfuel
      have hblank := length_skipBlank_le s
      cases hrest : s.skipBlank.rest with
      | nil => exact ⟨[], does_expression_end fuel hrest⟩
      | cons c rest =>
        by_cases hc : c = '\'' ∨ c = '"'
        · exact ⟨_, does_expression_principal fuel hrest hc⟩
        obtain ⟨log, hgate⟩ := exists_does_gate (s := s.skipBlank) fun s₁ hs₁ =>
          ih.2 s₁ (by omega)
        exact ⟨log, does_expression_gate hrest hc hgate⟩
    · intro s hfuel
      obtain ⟨log, hexpression⟩ := ih.1 s (by omega)
      cases hm : Policy.expression fuel s with
      | error fault =>
        rw [hm] at hexpression
        refine ⟨log, ?_⟩
        rw [Walk.operands, Policy.operands, hm]
        exact hexpression.bind_error
      | ok m =>
        rw [hm] at hexpression
        by_cases hlast : m.skipBlank.rest.head? = some ','
        · obtain ⟨rest, hcomma⟩ := List.head?_eq_some_iff.1 hlast
          obtain ⟨u, hu, hreads⟩ := expression_reads hm
          have hlength := length_lt_of_reads hreads hu
          have hblank := length_skipBlank_le m
          rw [hcomma, List.length_cons] at hblank
          obtain ⟨log', hops⟩ := ih.2 ⟨m.skipBlank.pos + 1, rest⟩ (by dsimp only; omega)
          exact ⟨_, does_operands_comma hexpression hm hcomma hops⟩
        · exact ⟨_, does_operands_last hexpression hm hlast⟩

/-- A cursor of a text is at its end where no characters are left. -/
theorem pos_eq_size_iff {front : List Char} (h : Cursor.Reads ⟨0, text⟩ front s) :
    s.pos = Utf8.size text ↔ s.rest = [] := by
  have hpos : s.pos = Utf8.size front := h.pos.trans (Nat.zero_add _)
  have htext : text = front ++ s.rest := h.rest
  have hlength := Utf8.length_le_size s.rest
  rw [hpos, htext, Cursor.Reads.size_append]
  constructor
  · intro hsize
    exact List.length_eq_zero_iff.1 (by omega)
  · intro hrest
    rw [hrest]
    rfl

/-- The whole parser reads the principals of the expression. -/
theorem does_check (h : Does text (Walk.expression text (Walk.enough text)) ⟨0, text⟩ log
      (moving (Policy.expression (Walk.enough text) ⟨0, text⟩))) :
    Does text (Walk.check text) ⟨0, text⟩ log
      (moving (Policy.check text >>= fun _ => .ok ⟨Utf8.size text, []⟩)) := by
  rw [Walk.check, Policy.check]
  change Does text _ _ _
    (moving ((Policy.expression (Walk.enough text) ⟨0, text⟩ >>= _) >>= _))
  cases hm : Policy.expression (Walk.enough text) ⟨0, text⟩ with
  | error fault =>
    rw [hm] at h
    exact h.bind_error
  | ok m =>
    rw [hm] at h
    refine h.before ((does_skipBlank m).then ((does_position _).then ?_))
    refine .of_inside fun hinside => ?_
    obtain ⟨front, hfront⟩ := hinside
    have hiff := pos_eq_size_iff hfront
    by_cases hend : m.skipBlank.rest = []
    · rw [if_pos (hiff.2 hend)]
      change Does text _ _ _ (moving ((if m.skipBlank.rest.isEmpty then _ else _) >>= _))
      rw [if_pos (List.isEmpty_iff.2 hend)]
      have hm' : m.skipBlank = ⟨Utf8.size text, []⟩ := by
        rw [← hend, ← hiff.2 hend]
      rw [hm']
      exact does_pure () _
    · rw [if_neg (fun h => hend (hiff.1 h))]
      change Does text _ _ _ (moving ((if m.skipBlank.rest.isEmpty then _ else _) >>= _))
      rw [if_neg (fun h => hend (List.isEmpty_iff.1 h))]
      exact (does_position _).then (does_refuse _ _)

end Does

end LedgerClient.Policy
