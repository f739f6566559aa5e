import LedgerClient.Proofs.Policy.Walk
/-!
# Positions in policies

* `Settles`: what more fuel does to a walk.  `Reader.walk_of_enough`: beyond a bound it does nothing.
* `Reached.sound`: no position is inside a character or less than one before it, whatever readers
  ran before and however they ended.
* `parser_keeps_boundaries`: all of it, with the progress of each reader of a part.
-/

namespace LedgerClient.Policy

/-! ## More fuel -/

section Fuel

variable {α β : Type} {w w' : Walk α} {k k' : α → Walk β} {text : List Char}

/-- The second reader does the same as the first one, unless that runs out of fuel. -/
def Settles (w w' : Walk α) : Prop := ∀ t, w t = w' t ∨ ∃ t', w t = .error .starved t'

theorem Settles.refl (w : Walk α) : Settles w w := fun _ => .inl rfl

theorem Settles.bind (h : Settles w w') (hk : ∀ a, Settles (k a) (k' a)) :
    Settles (w >>= k) (w' >>= k') := by
  intro t
  rcases h t with heq | ⟨t', hstarved⟩
  · cases hw : w t with
    | ok a t' =>
      rw [Walk.bind_ok hw, Walk.bind_ok (heq ▸ hw)]
      exact hk a t'
    | error e t' => exact .inl ((Walk.bind_error hw).trans (Walk.bind_error (heq ▸ hw)).symm)
  · exact .inr ⟨t', Walk.bind_error hstarved⟩

/-- What follows a step settles. -/
theorem Settles.after (hk : ∀ a, Settles (k a) (k' a)) : Settles (w >>= k) (w >>= k') :=
  (Settles.refl w).bind hk

theorem Settles.gate {ops ops' : Walk Nat} (h : Settles ops ops') :
    Settles (Walk.gate text ops) (Walk.gate text ops') := by
  rw [Walk.gate, Walk.gate]
  refine .after fun _ => .after fun _ => .after fun _ => .after fun _ => .after fun _ => ?_
  exact h.bind fun _ => .refl _

theorem settles_parts (text : List Char) (fuel : Nat) :
    Settles (Walk.expression text fuel) (Walk.expression text (fuel + 1)) ∧
      Settles (Walk.operands text fuel) (Walk.operands text (fuel + 1)) := by
  induction fuel with
  | zero => exact ⟨fun t => .inr ⟨t, rfl⟩, fun t => .inr ⟨t, rfl⟩⟩
  | succ fuel ih =>
    constructor
    · rw [Walk.expression, Walk.expression]
      refine .after fun _ => .after fun rest => ?_
      cases rest.head? with
      | none => exact .refl _
      | some c =>
        dsimp only
        split
        · exact .refl _
        · exact ih.2.gate
    · rw [Walk.operands, Walk.operands]
      refine ih.1.bind fun _ => .after fun _ => .after fun rest => ?_
      split
      · exact .after fun _ => ih.2.bind fun _ => .refl _
      · exact .refl _

end Fuel

/-! ## Readers one after the other -/

namespace Reader

/-- What a reader does on a cursor. -/
def read (fuel : Nat) (s : Cursor) : Reader → Except Fault Cursor
  | blanks => .ok s.skipBlank
  | token c => s.expect c
  | principal =>
    match s.rest with
    | [] => .error (.unterminated s.pos)
    | c :: rest => Policy.principal c ⟨s.pos + 1, rest⟩
  | gate => Policy.gate (Policy.operands fuel) s
  | expression => Policy.expression fuel s

/-- The readers of a principal, a gate and an expression. -/
def ReadsPart : Reader → Prop
  | blanks | token _ => False
  | principal | gate | expression => True

/-- A principal is asked for only where a quote is seen. -/
def Fits (text : List Char) (t : Track) : Reader → Prop
  | principal => ∃ front c rest, text = front ++ c :: rest ∧ t.pos = Utf8.size front ∧
      (c = '\'' ∨ c = '"')
  | _ => True

variable {text : List Char} {t : Track} {s s' : Cursor} {fuel : Nat} {r : Reader}

theorem rest_of_fits (h : t.At text s) (hfits : principal.Fits text t) :
    ∃ c rest, s.rest = c :: rest ∧ (c = '\'' ∨ c = '"') := by
  obtain ⟨front, c, rest, htext, hpos, hquote⟩ := hfits
  obtain ⟨front', hcut⟩ := h.splitBytes?
  rw [hpos, htext, Utf8.splitBytes?_append] at hcut
  exact ⟨c, rest, (congrArg Prod.snd (Option.some.inj hcut)).symm, hquote⟩

theorem exists_does (h : t.At text s) (hfits : r.Fits text t)
    (hfuel : Walk.enough text ≤ fuel) :
    ∃ log, Does text (r.walk text fuel) s log (moving (r.read fuel s)) := by
  obtain ⟨front, hfront⟩ := h.inside
  have hlength : s.rest.length ≤ text.length := by
    rw [show text = front ++ s.rest from hfront.rest, List.length_append]
    omega
  rw [Walk.enough] at hfuel
  cases r with
  | blanks => exact ⟨[], does_skipBlank s⟩
  | token c => exact ⟨[], does_expect c s⟩
  | principal =>
    obtain ⟨c, rest, hrest, hquote⟩ := rest_of_fits h hfits
    refine ⟨[rest.takeWhile (· != c)], ?_⟩
    rw [read, hrest]
    exact does_principal hrest hquote
  | gate => exact exists_does_gate fun s₁ hs₁ => (does_parts text fuel).2 s₁ (by omega)
  | expression => exact (does_parts text fuel).1 s (by omega)

/-- A part that is read takes characters. -/
theorem reads_of_readsPart (hr : r.ReadsPart) (h : t.At text s) (hfits : r.Fits text t)
    (hread : r.read fuel s = .ok s') : ∃ u, u ≠ [] ∧ s.Reads u s' := by
  cases r with
  | blanks => exact hr.elim
  | token c => exact hr.elim
  | principal =>
    obtain ⟨c, rest, hrest, hquote⟩ := rest_of_fits h hfits
    rw [read, hrest] at hread
    obtain ⟨body, -, -, hreads⟩ := (principal_ok_iff (width_of_quote hquote)).1 hread
    have hopen := Cursor.reads_single hrest
    rw [width_of_quote hquote] at hopen
    exact ⟨_, List.cons_ne_nil _ _, hopen.trans hreads⟩
  | gate =>
    obtain ⟨o, k?, s₁, n, s₂, v, hopens, -, hreads, hops, -, -, hclose⟩ := gate_ok_iff.1 hread
    obtain ⟨u, w, -, -, hoperands⟩ := (reads_derived fuel).2 hops
    exact ⟨_, by simp, hreads.trans (hoperands.trans hclose)⟩
  | expression => exact expression_reads hread

theorem settles_walk (text : List Char) (fuel : Nat) (r : Reader) :
    Settles (r.walk text fuel) (r.walk text (fuel + 1)) := by
  cases r with
  | gate => exact (settles_parts text fuel).2.gate
  | expression => exact (settles_parts text fuel).1
  | _ => exact .refl _

/-- A reader succeeds where it does so on the cursor, and is refused with the same fault. -/
theorem walk_spec (h : t.At text s) (hfits : r.Fits text t) (hfuel : Walk.enough text ≤ fuel) :
    (∃ s' t', r.read fuel s = .ok s' ∧ r.walk text fuel t = .ok () t' ∧ t'.At text s' ∧
      t.Extends t') ∨
    ∃ fault t', r.read fuel s = .error fault ∧ r.walk text fuel t = .error (.refused fault) t' ∧
      t'.Sound text ∧ t.Extends t' := by
  obtain ⟨log, hdoes⟩ := exists_does h hfits hfuel
  cases hread : r.read fuel s with
  | ok s' =>
    rw [hread] at hdoes
    obtain ⟨t', hwalk, ht', hext, -⟩ := hdoes t h
    exact .inl ⟨s', t', rfl, hwalk, ht', hext⟩
  | error fault =>
    rw [hread] at hdoes
    obtain ⟨t', hwalk, ht', hext⟩ := hdoes t h
    exact .inr ⟨fault, t', rfl, hwalk, ht', hext⟩

/-- With enough fuel, the amount does not matter. -/
theorem walk_of_enough (h : t.At text s) (hfits : r.Fits text t)
    (hfuel : Walk.enough text ≤ fuel) : r.walk text fuel t = r.walk text (Walk.enough text) t := by
  induction fuel, hfuel using Nat.le_induction with
  | base => rfl
  | succ fuel hfuel ih =>
    rw [← ih]
    rcases settles_walk text fuel r t with heq | ⟨t', hstarved⟩
    · exact heq.symm
    · rcases walk_spec h hfits hfuel with ⟨s', t'', -, hwalk, -⟩ | ⟨fault, t'', -, hwalk, -⟩
      · cases hwalk.symm.trans hstarved
      · cases hwalk.symm.trans hstarved

end Reader

/-- The tracks of a parser of the text: readers run one after the other, each from where the one
before it stopped, whether that succeeded or not. -/
inductive Reached (text : List Char) : Track → Prop
  | start : Reached text .start
  | ran {t : Track} {r : Reader} : Reached text t → r.Fits text t →
      Reached text (trackOf (r.walk text (Walk.enough text) t))

theorem Reached.sound {text : List Char} {t : Track} (h : Reached text t) : t.Sound text := by
  induction h with
  | start => exact (Track.start_at text).sound
  | ran _ hfits ih =>
    obtain ⟨s, hs⟩ := ih.exists_at
    rcases Reader.walk_spec hs hfits (Nat.le_refl _) with
      ⟨s', t', -, hwalk, ht', -⟩ | ⟨fault, t', -, hwalk, ht', -⟩
    · rw [hwalk]
      exact ht'.sound
    · rw [hwalk]
      exact ht'

end LedgerClient.Policy

namespace LedgerClient

open Policy

/-- However readers of a policy follow one another and however they end, the position never lies
inside a character or beyond the end, and never goes back.  From any such state each reader ends,
whatever fuel is added, without a broken cut and in such a state; one that reads a principal, a gate
or an expression moves on.  The parser of policies itself gives the verdict of `checkPolicy`. -/
theorem parser_keeps_boundaries (policy : String) :
    (∀ t, Reached policy.toList t → t.Sound policy.toList) ∧
    (∀ t, t.Sound policy.toList → ∀ r : Reader, r.Fits policy.toList t →
      (∀ fuel, Walk.enough policy.toList ≤ fuel → r.walk policy.toList fuel t =
        r.walk policy.toList (Walk.enough policy.toList) t) ∧
      ∃ t', t'.Sound policy.toList ∧ t.Extends t' ∧
        ((r.walk policy.toList (Walk.enough policy.toList) t = .ok () t' ∧
            (r.ReadsPart → t.pos < t'.pos)) ∨
          ∃ fault, r.walk policy.toList (Walk.enough policy.toList) t =
            .error (.refused fault) t')) ∧
    ∃ t, t.Sound policy.toList ∧
      ((Walk.check policy.toList .start = .ok () t ∧ checkPolicy policy = .ok ()) ∨
        ∃ fault, Walk.check policy.toList .start = .error (.refused fault) t ∧
          checkPolicy policy =
            .error (.invalidArgument s!"invalid signature policy {policy}: {fault.message}")) := by
  refine ⟨fun t ht => ht.sound, fun t ht r hfits => ?_, ?_⟩
  · obtain ⟨s, hs⟩ := ht.exists_at
    refine ⟨fun fuel hfuel => Reader.walk_of_enough hs hfits hfuel, ?_⟩
    rcases Reader.walk_spec hs hfits (Nat.le_refl _) with
      ⟨s', t', hread, hwalk, ht', hext⟩ | ⟨fault, t', -, hwalk, ht', hext⟩
    · refine ⟨t', ht'.sound, hext, .inl ⟨hwalk, fun hpart => ?_⟩⟩
      obtain ⟨u, hu, hreads⟩ := Reader.reads_of_readsPart hpart hs hfits hread
      have hlength := Utf8.length_le_size u
      have hpos := List.length_pos_iff.2 hu
      have hmoved := hreads.pos
      rw [hs.pos, ht'.pos]
      omega
    · exact ⟨t', ht', hext, .inr ⟨fault, hwalk⟩⟩
  · obtain ⟨log, hexpression⟩ :=
      (does_parts policy.toList (Walk.enough policy.toList)).1 ⟨0, policy.toList⟩ (Nat.le_succ _)
    have hdoes := does_check hexpression
    rw [checkPolicy]
    cases hcheck : Policy.check policy.toList with
    | ok _ =>
      rw [hcheck] at hdoes
      obtain ⟨t, hwalk, ht, -⟩ := hdoes _ (Track.start_at _)
      exact ⟨t, ht.sound, .inl ⟨hwalk, rfl⟩⟩
    | error fault =>
      rw [hcheck] at hdoes
      obtain ⟨t, hwalk, ht, -⟩ := hdoes _ (Track.start_at _)
      exact ⟨t, ht, .inr ⟨fault, hwalk, rfl⟩⟩

/-- What an expression that fails leaves before a quote: it has read the name of a gate. -/
def secondAttempt : Track := ⟨2, [1, 0, 0], []⟩

/-- After an expression has failed, the principal at which it stopped is read to its end. -/
theorem parser_keeps_boundaries_secondAttempt :
    Reached "x 'é.PEER'".toList secondAttempt ∧
      Reader.principal.Fits "x 'é.PEER'".toList secondAttempt ∧
      secondAttempt.Sound "x 'é.PEER'".toList ∧
      ∃ t', secondAttempt.Extends t' ∧ secondAttempt.pos < t'.pos ∧
        t'.principals = ["é.PEER".toList] := by
  have hreached : Reached "x 'é.PEER'".toList secondAttempt :=
    .ran (r := .expression) .start trivial
  have hfits : Reader.principal.Fits "x 'é.PEER'".toList secondAttempt :=
    ⟨['x', ' '], '\'', "é.PEER'".toList, rfl, rfl, .inl rfl⟩
  obtain ⟨hsound, hreaders, -⟩ := parser_keeps_boundaries "x 'é.PEER'"
  obtain ⟨-, t', -, hext, ⟨hwalk, hmoves⟩ | ⟨fault, hwalk⟩⟩ :=
    hreaders secondAttempt (hsound _ hreached) .principal hfits
  · exact ⟨hreached, hfits, hsound _ hreached, t', hext, hmoves trivial, by cases hwalk; rfl⟩
  · cases hwalk

end LedgerClient
