import Mathlib.Data.List.TakeWhile
import LedgerClient.Policy.Expression
import LedgerClient.Proofs.Wire.RoundTrip
/-!
# Reading policy expressions token by token

`Cursor.Reads s t s'` says that a cursor moves over the text `t`.  Every reader of a policy is
described by the texts that it moves over.

* `expect_ok_iff`, `count_ok_iff`: single tokens, with white space before them.
* `splitAtLastDot?_eq_some_iff`, `checkPrincipal_ok_iff`, `principal_ok_iff`: principals.
-/

namespace LedgerClient.Policy

/-- White space, possibly none. -/
def Blanks (w : List Char) : Prop := ∀ c ∈ w, isBlank c = true

theorem Blanks.nil : Blanks [] := fun _ h => nomatch h

theorem Blanks.append {v w : List Char} (hv : Blanks v) (hw : Blanks w) : Blanks (v ++ w) :=
  fun c hc => (List.mem_append.1 hc).elim (hv c) (hw c)

namespace Cursor

/-- The cursor moves over a text. -/
structure Reads (s : Cursor) (t : List Char) (s' : Cursor) : Prop where
  rest : s.rest = t ++ s'.rest
  pos : s'.pos = s.pos + Utf8.size t

namespace Reads

variable {s s' s'' : Cursor} {t u : List Char}

theorem refl (s : Cursor) : s.Reads [] s := ⟨rfl, rfl⟩

theorem size_append (t u : List Char) : Utf8.size (t ++ u) = Utf8.size t + Utf8.size u := by
  induction t with
  | nil => rw [List.nil_append, Utf8.size, Utf8.size, List.foldr_nil, Nat.zero_add]
  | cons c t ih =>
    change Utf8.width c + Utf8.size (t ++ u) = Utf8.width c + Utf8.size t + Utf8.size u
    rw [ih, Nat.add_assoc]

theorem trans (h : s.Reads t s') (h' : s'.Reads u s'') : s.Reads (t ++ u) s'' :=
  ⟨by rw [h.rest, h'.rest, List.append_assoc], by rw [h'.pos, h.pos, size_append, Nat.add_assoc]⟩

/-- A cursor that moves over a text moves over the first part of it first. -/
theorem split (h : s.Reads (t ++ u) s') : ∃ m, s.Reads t m ∧ m.Reads u s' :=
  ⟨⟨s.pos + Utf8.size t, u ++ s'.rest⟩, ⟨by rw [h.rest, List.append_assoc], rfl⟩,
    ⟨rfl, by rw [h.pos, size_append, Nat.add_assoc]⟩⟩

/-- Where a cursor gets to is determined by the text that it moves over. -/
theorem unique (h : s.Reads t s') (h' : s.Reads t s'') : s'' = s' := by
  have hrest : s''.rest = s'.rest := List.append_cancel_left (h'.rest.symm.trans h.rest)
  have hpos : s''.pos = s'.pos := h'.pos.trans h.pos.symm
  cases s''
  cases s'
  exact congrArg₂ Cursor.mk hpos hrest

end Reads

variable {s s' : Cursor} {t : List Char} {p : Char → Bool}

/-- What follows a cursor does not begin with a character of a class. -/
def Stops (p : Char → Bool) (s : Cursor) : Prop := ∀ c ∈ s.rest.head?, p c = false

theorem Stops.of_cons {c : Char} {rest : List Char} (h : s.rest = c :: rest) (hc : p c = false) :
    s.Stops p := by
  intro d hd
  rw [h] at hd
  cases hd
  exact hc

/-- `takeWhile` moves over characters of a class, as far as they go. -/
theorem takeWhile_eq_iff :
    s.takeWhile p = (t, s') ↔ (∀ c ∈ t, p c = true) ∧ s.Reads t s' ∧ s'.Stops p := by
  have htook : s.takeWhile p =
      (s.rest.takeWhile p, ⟨s.pos + Utf8.size (s.rest.takeWhile p), s.rest.dropWhile p⟩) := rfl
  constructor
  · intro h
    rw [htook] at h
    cases h
    refine ⟨fun c hc => List.mem_takeWhile_imp hc, ⟨List.takeWhile_append_dropWhile.symm, rfl⟩,
      fun c hc => ?_⟩
    have hhead := List.head?_dropWhile_not p s.rest
    rw [Option.mem_def.1 hc] at hhead
    exact hhead
  · rintro ⟨hall, hreads, hstops⟩
    have hdrop : s'.rest.dropWhile p = s'.rest := by
      cases hrest : s'.rest with
      | nil => rfl
      | cons c rest =>
        have hc := hstops c (by rw [hrest]; rfl)
        exact List.dropWhile_cons_of_neg (by rw [hc]; exact Bool.false_ne_true)
    have htake : s'.rest.takeWhile p = [] := by
      have hsplit := List.takeWhile_append_dropWhile (p := p) (l := s'.rest)
      rw [hdrop] at hsplit
      exact List.append_cancel_right (hsplit.trans (List.nil_append _).symm)
    have ht : s.rest.takeWhile p = t := by
      rw [hreads.rest, List.takeWhile_append_of_pos hall, htake, List.append_nil]
    have hd : s.rest.dropWhile p = s'.rest := by
      rw [hreads.rest, List.dropWhile_append_of_pos hall, hdrop]
    rw [htook, ht, hd, ← hreads.pos]

theorem skipBlank_eq_iff :
    s.skipBlank = s' ↔ ∃ w, Blanks w ∧ s.Reads w s' ∧ s'.Stops isBlank := by
  constructor
  · intro h
    exact ⟨_, takeWhile_eq_iff.1 (Prod.ext rfl h : s.takeWhile isBlank = (_, s'))⟩
  · rintro ⟨w, hw⟩
    exact congrArg Prod.snd (takeWhile_eq_iff.2 hw)

theorem reads_skipBlank (s : Cursor) : ∃ w, Blanks w ∧ s.Reads w s.skipBlank := by
  obtain ⟨w, hw, hreads, -⟩ := skipBlank_eq_iff.1 (rfl : s.skipBlank = s.skipBlank)
  exact ⟨w, hw, hreads⟩

theorem reads_single {c : Char} {rest : List Char} (h : s.rest = c :: rest) :
    s.Reads [c] ⟨s.pos + Utf8.width c, rest⟩ := ⟨h, rfl⟩

theorem expect_ok_iff {c : Char} (hc : isBlank c = false) :
    s.expect c = .ok s' ↔ ∃ w, Blanks w ∧ s.Reads (w ++ [c]) s' := by
  constructor
  · intro h
    obtain ⟨w, hw, hreads⟩ := reads_skipBlank s
    rw [expect] at h
    cases hrest : s.skipBlank.rest with
    | nil =>
      simp only [hrest] at h
      cases h
    | cons a rest =>
      simp only [hrest] at h
      split at h
      · rename_i ha
        cases h
        subst ha
        exact ⟨w, hw, hreads.trans (reads_single hrest)⟩
      · cases h
  · rintro ⟨w, hw, hreads⟩
    obtain ⟨m, hm, hread⟩ := hreads.split
    have hrest : m.rest = c :: s'.rest := hread.rest
    have hskip : s.skipBlank = m := skipBlank_eq_iff.2 ⟨w, hw, hm, .of_cons hrest hc⟩
    rw [expect, hskip]
    simp only [hrest, if_pos]
    exact congrArg Except.ok ((reads_single hrest).unique hread).symm

end Cursor

/-! ## Principals -/

theorem splitAtLastDot?_eq_none_iff {cs : List Char} :
    splitAtLastDot? cs = none ↔ '.' ∉ cs := by
  induction cs with
  | nil => simp [splitAtLastDot?]
  | cons c cs ih =>
    rw [splitAtLastDot?, List.mem_cons, not_or, ← ih]
    cases splitAtLastDot? cs with
    | none => simp [eq_comm]
    | some parts => simp

/-- The parts lie before and after a dot that no other dot follows. -/
theorem splitAtLastDot?_eq_some_iff {cs before after : List Char} :
    splitAtLastDot? cs = some (before, after) ↔ cs = before ++ '.' :: after ∧ '.' ∉ after := by
  induction cs generalizing before after with
  | nil => simp [splitAtLastDot?]
  | cons c cs ih =>
    rw [splitAtLastDot?]
    cases hsplit : splitAtLastDot? cs with
    | none =>
      have hnone := splitAtLastDot?_eq_none_iff.1 hsplit
      constructor
      · intro h
        dsimp only at h
        split at h
        · rename_i hc
          cases h
          exact ⟨by rw [hc]; rfl, hnone⟩
        · cases h
      · rintro ⟨h, -⟩
        cases before with
        | nil =>
          cases h
          rfl
        | cons b before =>
          cases h
          exact absurd (List.mem_append_right _ List.mem_cons_self) hnone
    | some parts =>
      obtain ⟨before', after'⟩ := parts
      obtain ⟨hcs, hafter'⟩ := ih.1 hsplit
      constructor
      · intro h
        cases h
        exact ⟨congrArg (c :: ·) hcs, hafter'⟩
      · rintro ⟨h, hafter⟩
        cases before with
        | nil =>
          -- a dot further on would follow the last one
          cases h
          exact absurd (hcs ▸ List.mem_append_right _ List.mem_cons_self) hafter
        | cons b before =>
          obtain ⟨rfl, htail⟩ := List.cons.inj h
          have hparts := hsplit.symm.trans (ih.2 ⟨htail, hafter⟩)
          cases hparts
          rfl

/-- What stands between the quotes of a principal: an organization and a role of it. -/
def NamesRole (body : List Char) : Prop :=
  ∃ msp role, body = msp ++ '.' :: role ∧ '.' ∉ role ∧ msp ≠ [] ∧ lowerCase role ∈ roles

theorem checkPrincipal_ok_iff {body : List Char} :
    checkPrincipal body = .ok () ↔ NamesRole body := by
  rw [checkPrincipal]
  cases hsplit : splitAtLastDot? body with
  | none =>
    refine ⟨fun h => (nomatch h), ?_⟩
    rintro ⟨msp, role, rfl, -⟩
    exact absurd (List.mem_append_right _ List.mem_cons_self) (splitAtLastDot?_eq_none_iff.1 hsplit)
  | some parts =>
    obtain ⟨msp, role⟩ := parts
    obtain ⟨rfl, hrole⟩ := splitAtLastDot?_eq_some_iff.1 hsplit
    constructor
    · intro h
      dsimp only at h
      split at h
      · cases h
      · rename_i hmsp
        split at h
        · rename_i hknown
          exact ⟨msp, role, rfl, hrole, fun hnil => hmsp (List.isEmpty_iff.2 hnil),
            List.contains_iff_mem.1 hknown⟩
        · cases h
    · rintro ⟨msp', role', heq, hrole', hmsp, hknown⟩
      have hparts := hsplit.symm.trans (splitAtLastDot?_eq_some_iff.2 ⟨heq, hrole'⟩)
      cases hparts
      dsimp only
      rw [if_neg fun hnil => hmsp (List.isEmpty_iff.1 hnil),
        if_pos (List.contains_iff_mem.2 hknown)]

theorem principal_ok_iff {quote : Char} {s s' : Cursor} (hwidth : Utf8.width quote = 1) :
    principal quote s = .ok s' ↔
      ∃ body, quote ∉ body ∧ NamesRole body ∧ s.Reads (body ++ [quote]) s' := by
  have hquote : ∀ body : List Char, (∀ c ∈ body, (c != quote) = true) ↔ quote ∉ body := by
    intro body
    simp only [bne_iff_ne]
    exact ⟨fun h hm => h quote hm rfl, fun h c hc heq => h (heq ▸ hc)⟩
  constructor
  · intro h
    rw [principal] at h
    generalize htake : s.takeWhile (· != quote) = taken at h
    obtain ⟨body, after⟩ := taken
    obtain ⟨hall, hreads, hstops⟩ := Cursor.takeWhile_eq_iff.1 htake
    cases hrest : after.rest with
    | nil =>
      simp only [hrest] at h
      cases h
    | cons c rest =>
      have hc : c = quote := by
        have hc := hstops c (by rw [hrest]; rfl)
        exact Decidable.byContradiction fun hne => by simp [hne] at hc
      subst hc
      simp only [hrest] at h
      obtain ⟨_, hcheck, hreturn⟩ := except_bind_ok.1 h
      cases hreturn
      refine ⟨body, (hquote body).1 hall, checkPrincipal_ok_iff.1 hcheck, hreads.trans ?_⟩
      rw [← hwidth]
      exact Cursor.reads_single hrest
  · rintro ⟨body, hbody, hnames, hreads⟩
    obtain ⟨after, hafter, hclose⟩ := hreads.split
    have hrest : after.rest = quote :: s'.rest := hclose.rest
    have htake : s.takeWhile (· != quote) = (body, after) :=
      Cursor.takeWhile_eq_iff.2 ⟨(hquote body).2 hbody, hafter, .of_cons hrest (by simp)⟩
    rw [principal, htake]
    simp only [hrest, checkPrincipal_ok_iff.2 hnames, bind, Except.bind, pure, Except.pure]
    rw [← hwidth]
    exact congrArg Except.ok ((Cursor.reads_single hrest).unique hclose).symm

/-! ## Counts -/

/-- The visible characters of ASCII are no white space. -/
theorem isBlank_of_visible {c : Char} (h : 0x21 ≤ c.toNat ∧ c.toNat ≤ 0x7E) :
    isBlank c = false := by
  have houtside : ∀ r ∈ blankRanges, r.2 < 0x21 ∨ 0x7E < r.1 := by decide
  rw [isBlank, List.any_eq_false]
  intro r hr
  have hr := houtside r hr
  simp only [Bool.and_eq_true, decide_eq_true_eq]
  omega

theorem isDigit_iff {c : Char} : isDigit c = true ↔ 48 ≤ c.toNat ∧ c.toNat ≤ 57 := by
  simp only [isDigit, Bool.and_eq_true, decide_eq_true_eq, Char.le_def, UInt32.le_iff_toNat_le]
  rfl

theorem isBlank_of_isDigit {c : Char} (h : isDigit c = true) : isBlank c = false :=
  isBlank_of_visible (by
    have h := isDigit_iff.1 h
    omega)

theorem not_isDigit_of_isBlank {c : Char} (h : isBlank c = true) : isDigit c = false :=
  Bool.eq_false_iff.2 fun hdigit => by
    rw [isBlank_of_isDigit hdigit] at h
    cases h

/-- A count up to its comma: digits, with white space around them. -/
def IsCount (t : List Char) (n : Nat) : Prop :=
  ∃ v digits w, t = v ++ (digits ++ (w ++ [','])) ∧ Blanks v ∧ digits ≠ [] ∧
    (∀ d ∈ digits, isDigit d = true) ∧ Blanks w ∧ n = countOf digits

/-- Between white space and a character that is none, a cursor stops at what is no digit. -/
theorem stops_isDigit {s s' : Cursor} {w : List Char} {c : Char} (hw : Blanks w)
    (hc : isDigit c = false) (h : s.Reads (w ++ [c]) s') : s.Stops isDigit := by
  cases w with
  | nil => exact .of_cons h.rest hc
  | cons b w => exact .of_cons h.rest (not_isDigit_of_isBlank (hw b List.mem_cons_self))

theorem count_ok_iff {s s' : Cursor} {n : Nat} :
    count s = .ok (n, s') ↔ ∃ t, IsCount t n ∧ n < 2 ^ 64 ∧ s.Reads t s' := by
  constructor
  · intro h
    rw [count] at h
    obtain ⟨v, hv, hskip⟩ := Cursor.reads_skipBlank s
    generalize htake : s.skipBlank.takeWhile isDigit = taken at h
    obtain ⟨digits, after⟩ := taken
    obtain ⟨hdigits, hreads, -⟩ := Cursor.takeWhile_eq_iff.1 htake
    dsimp only at h
    split at h
    · cases h
    rename_i hcount
    obtain ⟨s'', hexpect, hreturn⟩ := except_bind_ok.1 h
    cases hreturn
    obtain ⟨w, hw, hcomma⟩ := (Cursor.expect_ok_iff (by decide)).1 hexpect
    simp only [Bool.or_eq_true, List.isEmpty_iff, decide_eq_true_eq, not_or, Nat.not_le] at hcount
    exact ⟨_, ⟨v, digits, w, rfl, hv, hcount.1, hdigits, hw, rfl⟩, hcount.2,
      hskip.trans (hreads.trans hcomma)⟩
  · rintro ⟨_, ⟨v, digits, w, rfl, hv, hne, hdigits, hw, rfl⟩, hsmall, hreads⟩
    obtain ⟨m, hm, hrest⟩ := hreads.split
    obtain ⟨after, hafter, hcomma⟩ := hrest.split
    obtain ⟨d, ds, rfl⟩ := List.exists_cons_of_ne_nil hne
    have hskip : s.skipBlank = m := Cursor.skipBlank_eq_iff.2 ⟨v, hv, hm,
      .of_cons hafter.rest (isBlank_of_isDigit (hdigits d List.mem_cons_self))⟩
    have htake : m.takeWhile isDigit = (d :: ds, after) :=
      Cursor.takeWhile_eq_iff.2 ⟨hdigits, hafter, stops_isDigit hw (by decide) hcomma⟩
    have hexpect : after.expect ',' = .ok s' :=
      (Cursor.expect_ok_iff (by decide)).2 ⟨w, hw, hcomma⟩
    have hcount : ¬(List.isEmpty (d :: ds) || Nat.pow 2 64 ≤ countOf (d :: ds)) = true := by
      simp only [List.isEmpty_cons, Bool.false_or, decide_eq_true_eq, Nat.not_le]
      exact hsmall
    rw [count, hskip]
    dsimp only
    rw [htake]
    dsimp only
    rw [if_neg hcount, hexpect]
    rfl

end LedgerClient.Policy
